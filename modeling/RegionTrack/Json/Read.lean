import RegionTrack.Json.Number

/-!
# Reading JSON values

The grammar of JSON text, read into `Value`s or checked and skipped. Strings may hold any
character from U+0020 on, and the escapes `\" \\ \/ \b \f \n \r \t \uXXXX`; a `\u` escape of a
high surrogate must be followed by one of a low surrogate, and a lone low surrogate is refused.
Arrays and objects nest at most 127 deep. In an object a repeated key keeps its last value.

Every loop is bounded by fuel drawn from the length of the unread input, a fixed multiple of it
where a loop takes more than one step for a byte, so the fuel is never the reason a reading
stops.

`Value.parse` reads a whole text: one value, then nothing but blanks.
-/

namespace RegionTrack.Json

namespace Reader

/-- The value of a hexadecimal digit. -/
def hexValue (b : UInt8) : Option Nat :=
  if 48 ≤ b ∧ b ≤ 57 then some (b - 48).toNat
  else if 97 ≤ b ∧ b ≤ 102 then some ((b - 97).toNat + 10)
  else if 65 ≤ b ∧ b ≤ 70 then some ((b - 65).toNat + 10)
  else none

/-- The UTF-8 bytes of a scalar value. -/
def utf8Bytes (cp : Nat) : List UInt8 := (String.singleton (Char.ofNat cp)).toUTF8.toList

/-- Four hexadecimal digits of a `\u` escape. -/
def hexEscape : Reader Nat := do
  let some a ← next | fail .eofInString
  let some b ← next | fail .eofInString
  let some c ← next | fail .eofInString
  let some d ← next | fail .eofInString
  match hexValue a, hexValue b, hexValue c, hexValue d with
  | some a, some b, some c, some d => return ((a * 16 + b) * 16 + c) * 16 + d
  | _, _, _, _ => fail .invalidEscape

/-- Expects the byte `b` of a second escape after a high surrogate. -/
def surrogateMark (b : UInt8) : Reader Unit := do
  match ← peek with
  | none => fail .eofInString
  | some c =>
    eat
    if c ≠ b then fail .unexpectedEndOfHexEscape

/-- A `\u` escape after its `u`: a scalar value, or a pair of surrogate escapes. -/
def unicodeEscape : Reader (List UInt8) := do
  let n ← hexEscape
  if 0xDC00 ≤ n ∧ n ≤ 0xDFFF then fail .loneLeadingSurrogate
  else if n < 0xD800 ∨ n > 0xDBFF then return utf8Bytes n
  else
    surrogateMark 92
    surrogateMark 117
    let low ← hexEscape
    if low < 0xDC00 ∨ low > 0xDFFF then fail .loneLeadingSurrogate
    else return utf8Bytes ((((n - 0xD800) <<< 10) ||| (low - 0xDC00)) + 0x10000)

/-- The bytes an escape stands for, after its backslash. -/
def escape : Reader (List UInt8) := do
  match ← next with
  | none => fail .eofInString
  | some c =>
    if c = 34 then return [34]
    else if c = 92 then return [92]
    else if c = 47 then return [47]
    else if c = 98 then return [8]
    else if c = 102 then return [12]
    else if c = 110 then return [10]
    else if c = 114 then return [13]
    else if c = 116 then return [9]
    else if c = 117 then unicodeEscape
    else fail .invalidEscape

/-- The bytes of a string up to its closing quote, accumulated in reverse. -/
def stringBytes (acc : List UInt8) : Nat → Reader (List UInt8)
  | 0 => fail .eofInString
  | fuel + 1 => do
    match ← next with
    | none => fail .eofInString
    | some b =>
      if b = 34 then return acc.reverse
      else if b = 92 then stringBytes ((← escape).reverse ++ acc) fuel
      else if b < 32 then fail .controlCharacter
      else stringBytes (b :: acc) fuel

/-- A string after its opening quote. -/
def readString : Reader String := do
  let bytes ← stringBytes [] (← fuel)
  match String.fromUTF8? (ByteArray.mk bytes.toArray) with
  | some s => return s
  | none => fail .invalidCodePoint

/-- Checks an escape after its backslash. -/
def skipEscape : Reader Unit := do
  match ← next with
  | none => fail .eofInString
  | some c =>
    if c = 117 then discard hexEscape
    else if [34, 92, 47, 98, 102, 110, 114, 116].contains c then pure ()
    else fail .invalidEscape

/-- Checks a string after its opening quote. A control character is refused where it stands. -/
def skipString : Nat → Reader Unit
  | 0 => fail .eofInString
  | fuel + 1 => do
    match ← peek with
    | none => fail .eofInString
    | some b =>
      if b = 34 then eat
      else if b = 92 then
        eat
        skipEscape
        skipString fuel
      else if b < 32 then fail .controlCharacter
      else
        eat
        skipString fuel

/-- Whether another element follows in an array; `first` is true before the first one. -/
def nextElement (first : Bool) : Reader Bool := do
  match ← skipBlanks with
  | none => failPeek .eofInList
  | some b =>
    if b = 93 then return false
    else if first then return true
    else if b = 44 then
      eat
      match ← skipBlanks with
      | some 93 => failPeek .trailingComma
      | some _ => return true
      | none => failPeek .eofInValue
    else failPeek .expectedListCommaOrEnd

/-- The key of an object member whose first byte is `b`. -/
def keyAt : Option UInt8 → Reader (Option String)
  | some 34 => do
    eat
    return some (← readString)
  | some 125 => failPeek .trailingComma
  | some _ => failPeek .keyMustBeString
  | none => failPeek .eofInValue

/-- The key of the next member of an object, or `none` at its closing brace; `first` is true
before the first member. -/
def nextKey (first : Bool) : Reader (Option String) := do
  match ← skipBlanks with
  | none => failPeek .eofInObject
  | some b =>
    if b = 125 then return none
    else if b = 44 ∧ !first then
      eat
      keyAt (← skipBlanks)
    else if first then keyAt (some b)
    else failPeek .expectedObjectCommaOrEnd

/-- The colon between a key and its value. -/
def expectColon : Reader Unit := do
  match ← skipBlanks with
  | some 58 => eat
  | some _ => failPeek .expectedColon
  | none => failPeek .eofInObject

/-- The end of an array whose elements have been read. -/
def closeArray : Reader Unit := do
  match ← skipBlanks with
  | some 93 => eat
  | some 44 =>
    eat
    match ← skipBlanks with
    | some 93 => failPeek .trailingComma
    | _ => failPeek .trailingCharacters
  | some _ => failPeek .trailingCharacters
  | none => failPeek .eofInList

/-- The end of an object whose members have been read. -/
def closeObject : Reader Unit := do
  match ← skipBlanks with
  | some 125 => eat
  | some 44 => failPeek .trailingComma
  | some _ => failPeek .trailingCharacters
  | none => failPeek .eofInObject

mutual

/-- A value, after any blanks. -/
def readValue : Nat → Reader Value
  | 0 => fail .recursionLimit
  | fuel + 1 => do
    match ← skipBlanks with
    | none => failPeek .eofInValue
    | some b =>
      if b = 110 then
        eat
        expectWord [117, 108, 108]
        return .null
      else if b = 116 then
        eat
        expectWord [114, 117, 101]
        return .bool true
      else if b = 102 then
        eat
        expectWord [97, 108, 115, 101]
        return .bool false
      else if b = 45 then
        eat
        return .number (← readNumber false)
      else if isDigit b then return .number (← readNumber true)
      else if b = 34 then
        eat
        return .string (← readString)
      else if b = 91 then
        descend
        eat
        let items ← readItems fuel true []
        ascend
        closeArray
        return .array items
      else if b = 123 then
        descend
        eat
        let members ← readMembers fuel true []
        ascend
        closeObject
        return .object members
      else failPeek .expectedValue

/-- The elements of an array up to its closing bracket, accumulated in reverse. -/
def readItems : Nat → Bool → List Value → Reader (List Value)
  | 0, _, _ => fail .recursionLimit
  | fuel + 1, first, acc => do
    if ← nextElement first then
      let v ← readValue fuel
      readItems fuel false (v :: acc)
    else return acc.reverse

/-- The members of an object up to its closing brace. -/
def readMembers : Nat → Bool → List (String × Value) → Reader (List (String × Value))
  | 0, _, _ => fail .recursionLimit
  | fuel + 1, first, acc => do
    match ← nextKey first with
    | none => return acc
    | some key =>
      expectColon
      let v ← readValue fuel
      readMembers fuel false (Object.insert key v acc)

end

/-- A value, after any blanks. Along any chain of the calls above, a value read consumes at least
one byte and so does each further element or member, so two steps for each byte left (and one
more) are enough. -/
def value : Reader Value := do
  readValue (2 * (← fuel) + 1)

/-- Checks one value and skips it, keeping the open arrays and objects on a stack instead of
nesting calls, so that nesting has no limit here. Of any three steps one reads a byte, so three
steps for each byte left are enough. -/
def skipValue : Reader Unit := do
  skipFrom [] none (3 * (← fuel))
where
  /-- Skips values; `stack` holds the open brackets outside `enclosing`. After a value the loop
  goes on in the innermost open bracket, knowing whether a value was just read in it. -/
  skipFrom (stack : List UInt8) (enclosing : Option UInt8) : Nat → Reader Unit
    | 0 => fail .recursionLimit
    | fuel + 1 => do
      let peeked ← skipBlanks
      let opened ← match peeked with
        | none => failPeek .eofInValue
        | some b =>
          if b = 110 then do eat; expectWord [117, 108, 108]; pure none
          else if b = 116 then do eat; expectWord [114, 117, 101]; pure none
          else if b = 102 then do eat; expectWord [97, 108, 115, 101]; pure none
          else if b = 45 then do eat; skipNumber; pure none
          else if isDigit b then do skipNumber; pure none
          else if b = 34 then do eat; skipString (← Reader.fuel); pure none
          else if b = 91 ∨ b = 123 then do eat; pure (some b)
          else failPeek .expectedValue
      let stack := match opened with
        | some _ => (match enclosing with | some e => e :: stack | none => stack)
        | none => stack
      let start : Option (Bool × UInt8) := match opened with
        | some o => some (false, o)
        | none => match enclosing with
          | some e => some (true, e)
          | none => match stack with
            | e :: _ => some (true, e)
            | [] => none
      let stack := match opened, enclosing with
        | none, none => stack.drop 1
        | _, _ => stack
      match start with
      | none => pure ()
      | some (acceptComma, frame) => afterValue stack acceptComma frame fuel
  /-- Closes finished brackets after a value and goes on with the next value. -/
  afterValue (stack : List UInt8) (acceptComma : Bool) (frame : UInt8) : Nat → Reader Unit
    | 0 => fail .recursionLimit
    | fuel + 1 => do
      let b ← skipBlanks
      match b with
      | none => failPeek (if frame = 91 then .eofInList else .eofInObject)
      | some c =>
        if c = 44 ∧ acceptComma then
          eat
          memberKey stack frame fuel
        else if (c = 93 ∧ frame = 91) ∨ (c = 125 ∧ frame = 123) then
          eat
          match stack with
          | [] => pure ()
          | f :: rest => afterValue rest true f fuel
        else if acceptComma then
          failPeek (if frame = 91 then .expectedListCommaOrEnd else .expectedObjectCommaOrEnd)
        else memberKey stack frame fuel
  /-- Before a value inside `frame`: an object member first has its key and colon. -/
  memberKey (stack : List UInt8) (frame : UInt8) : Nat → Reader Unit
    | 0 => fail .recursionLimit
    | fuel + 1 => do
      if frame = 123 then
        match ← skipBlanks with
        | some 34 => eat
        | some _ => failPeek .keyMustBeString
        | none => failPeek .eofInObject
        skipString (← Reader.fuel)
        match ← skipBlanks with
        | some 58 => eat
        | some _ => failPeek .expectedColon
        | none => failPeek .eofInObject
      skipFrom stack (some frame) fuel

end Reader

/-- Runs a reader over the bytes of a text. -/
def Reader.run {α : Type} (r : Reader α) (mode : Mode) (input : List UInt8) : Except Error α :=
  ((ExceptT.run r).run (Cursor.start mode input)).1

/-- One value and then nothing but blanks. -/
def Reader.document {α : Type} (r : Reader α) : Reader α := do
  let v ← r
  match ← Reader.skipBlanks with
  | some _ => Reader.failPeek .trailingCharacters
  | none => return v

/-- Reads a whole text as one JSON value. -/
def Value.parse (text : String) : Except Error Value :=
  Reader.run (Reader.document Reader.value) .text text.toUTF8.toList

end RegionTrack.Json

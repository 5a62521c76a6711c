import RegionTrack.Json.Read

/-!
# Expected shapes of JSON data

A `Shape α` says what JSON form a datum of type `α` has, and reads it two ways: from a value
already read (`ofValue`), or straight from text (`read`). Both refuse the same data with the
same causes; only text gives positions.

The building blocks are numbers (as a float, or as an unsigned integer below a bound), strings,
booleans, optional data, sequences, enumerations of names, and records. A record is written as
an object with a member per field (other members are ignored, a repeated field is an error) or
as an array of its fields in order. A field that is absent takes its default if it has one; an
optional field without a default is null when absent from an object, and every other absent
field is an error. The first fault found wins: members are looked at in the order they come,
fields checked for absence in the order they are declared.
-/

namespace RegionTrack.Json

/-- A JSON form of data of type `α`, and how to read it. -/
structure Shape (α : Type) where
  /-- What messages say was expected. -/
  expecting : String
  /-- Reads the datum from a value. -/
  ofValue : Value → Except Error α
  /-- Reads the datum from text. -/
  read : Reader α

/-- A field of a record. Records carry their fields as values. -/
structure Field where
  name : String
  shape : Shape Value
  /-- The value taken when the field is absent, in either form of the record. -/
  default : Option Value := none
  /-- An absent member reads as null (only in the object form). -/
  optional : Bool := false

namespace Shape

/-- The data read by `s`, transformed by `f`. -/
def map {α β : Type} (f : α → β) (s : Shape α) : Shape β where
  expecting := s.expecting
  ofValue v := f <$> s.ofValue v
  read := f <$> s.read

/-- Fails because the value is of the wrong kind. -/
def wrongType {α : Type} (v : Value) (expecting : String) : Except Error α :=
  throw (Error.ofMismatch (.invalidType v.unexpected expecting))

/-- In text: reads the value that stands where something else was expected, to name it, and
fails. -/
def wrongTypeHere {α : Type} (expecting : String) : Reader α := do
  let b ← Reader.peekOrNull
  let found ← if b = 110 then do
      Reader.eat
      Reader.expectWord [117, 108, 108]
      pure Unexpected.null
    else if b = 116 then do
      Reader.eat
      Reader.expectWord [114, 117, 101]
      pure (Unexpected.bool true)
    else if b = 102 then do
      Reader.eat
      Reader.expectWord [97, 108, 115, 101]
      pure (Unexpected.bool false)
    else if b = 45 then do
      Reader.eat
      pure (← Reader.readNumber false).unexpected
    else if Reader.isDigit b then do
      pure (← Reader.readNumber true).unexpected
    else if b = 34 then do
      Reader.eat
      pure (Unexpected.string (← Reader.readString))
    else if b = 91 then pure Unexpected.seq
    else if b = 123 then pure Unexpected.map
    else Reader.failPeek .expectedValue
  throw (← Reader.placed (Error.ofMismatch (.invalidType found expecting)))

/-- Numbers accepted by `visit`. -/
def number {α : Type} (expecting : String) (visit : Number → Except Mismatch α) : Shape α where
  expecting := expecting
  ofValue
    | .number n => (visit n).mapError Error.ofMismatch
    | v => wrongType v expecting
  read := Reader.placing do
    match ← Reader.skipBlanks with
    | none => Reader.failPeek .eofInValue
    | some b =>
      if b = 45 then
        Reader.eat
        let n ← Reader.readNumber false
        liftExcept ((visit n).mapError Error.ofMismatch)
      else if Reader.isDigit b then
        let n ← Reader.readNumber true
        liftExcept ((visit n).mapError Error.ofMismatch)
      else wrongTypeHere expecting
where
  liftExcept {β : Type} : Except Error β → Reader β
    | .ok x => pure x
    | .error e => throw e

/-- Any number, as the float nearest to it. -/
def float : Shape Float :=
  number "f64" fun n => .ok n.toFloat

/-- A non-negative integer at most `bound`, named `name` in messages. -/
def unsigned (name : String) (bound : Nat) : Shape Nat :=
  number name fun
    | .unsigned n => if n ≤ bound then .ok n else .error (.invalidValue (.unsigned n) name)
    | .negative n => .error (.invalidValue (.signed n) name)
    | .float x => .error (.invalidType (.float x) name)

/-- A string; `expecting` names what the string stands for. -/
def string (expecting : String) : Shape String where
  expecting := expecting
  ofValue
    | .string s => .ok s
    | v => wrongType v expecting
  read := Reader.placing do
    match ← Reader.skipBlanks with
    | none => Reader.failPeek .eofInValue
    | some b =>
      if b = 34 then
        Reader.eat
        Reader.readString
      else wrongTypeHere expecting

/-- A boolean. -/
def bool : Shape Bool where
  expecting := "a boolean"
  ofValue
    | .bool b => .ok b
    | v => wrongType v "a boolean"
  read := Reader.placing do
    match ← Reader.skipBlanks with
    | none => Reader.failPeek .eofInValue
    | some b =>
      if b = 116 then
        Reader.eat
        Reader.expectWord [114, 117, 101]
        return true
      else if b = 102 then
        Reader.eat
        Reader.expectWord [97, 108, 115, 101]
        return false
      else wrongTypeHere "a boolean"

/-- Any value. -/
def any : Shape Value where
  expecting := "any valid JSON value"
  ofValue v := .ok v
  read := do Reader.value

/-- Data of shape `s`, or null. -/
def option {α : Type} (s : Shape α) : Shape (Option α) where
  expecting := "option"
  ofValue
    | .null => .ok none
    | v => some <$> s.ofValue v
  read := do
    match ← Reader.skipBlanks with
    | some 110 =>
      Reader.eat
      Reader.expectWord [117, 108, 108]
      return none
    | _ => some <$> s.read

/-- Elements read in text until the closing bracket, accumulated in reverse. -/
def readElements {α : Type} (s : Shape α) (first : Bool) (acc : List α) : Nat → Reader (List α)
  | 0 => Reader.fail .recursionLimit
  | fuel + 1 => do
    if ← Reader.nextElement first then
      let x ← s.read
      readElements s false (x :: acc) fuel
    else return acc.reverse

/-- In text: runs `inner` inside brackets that were looked at, then closes them with `close`.
A fault of `inner` wins over one of `close`, but `close` looks ahead either way. -/
def bracketed {α : Type} (inner : Reader α) (close : Reader Unit) : Reader α := do
  Reader.descend
  Reader.eat
  let r ← tryCatch (Except.ok <$> inner) (fun e => pure (Except.error e))
  Reader.ascend
  let closed ← tryCatch (Except.ok <$> close) (fun e => pure (Except.error e))
  match r, closed with
  | .error e, _ => throw e
  | .ok _, .error e => throw e
  | .ok x, .ok () => return x

/-- A sequence of data of shape `s`. -/
def seq {α : Type} (s : Shape α) : Shape (List α) where
  expecting := "a sequence"
  ofValue
    | .array items => items.mapM s.ofValue
    | v => wrongType v "a sequence"
  read := Reader.placing do
    match ← Reader.skipBlanks with
    | none => Reader.failPeek .eofInValue
    | some b =>
      if b = 91 then bracketed (do readElements s true [] (← Reader.fuel)) Reader.closeArray
      else wrongTypeHere "a sequence"

/-- The name `v` among `variants`, as an enumeration called `name`. -/
def variantNamed (variants : List String) (v : String) : Except Error String :=
  if variants.contains v then .ok v
  else throw (Error.ofMismatch (.unknownVariant v variants))

/-- One of the names `variants`: written as the name, or as an object with the name as its
only key and null as its value. -/
def enumeration (name : String) (variants : List String) : Shape String :=
  let expecting := "enum " ++ name
  let ofValue : Value → Except Error String := fun
    | .string v => variantNamed variants v
    | .object [(k, w)] => do
      let v ← variantNamed variants k
      match w with
      | .null => .ok v
      | w => wrongType w "unit"
    | .object _ => throw (Error.ofMismatch (.invalidValue .map "map with a single key"))
    | v => wrongType v "string or map"
  { expecting := expecting
    ofValue := ofValue
    read := do
      let v ← Reader.value
      match ofValue v with
      | .ok x => return x
      | .error e => throw (← Reader.placed e) }

end Shape

namespace Record

/-- What messages say a record's array form should have been. -/
def arrayExpecting (name : String) (fields : List Field) : String :=
  "struct " ++ name ++ " with " ++ toString fields.length ++ " elements"

/-- The values of the fields once all members are seen: absent fields take their default, or
null when optional, and otherwise fail; they are checked in declaration order. -/
def complete (fields : List Field) (found : List (Option Value)) : Except Error (List Value) :=
  (fields.zip found).mapM fun (f, v) =>
    match v, f.default with
    | some v, _ => .ok v
    | none, some d => .ok d
    | none, none =>
      if f.optional then .ok .null else throw (Error.ofMismatch (.missingField f.name))

/-- The index of the field called `key`. -/
def fieldIndex (fields : List Field) (key : String) : Option Nat :=
  fields.findIdx? (·.name = key)

/-- Reads a record from the members of an object value, in their order. -/
def ofMembers (fields : List Field) (members : List (String × Value)) :
    Except Error (List Value) := do
  let step := fun (found : List (Option Value)) (kv : String × Value) =>
    match fieldIndex fields kv.1 with
    | none => .ok found
    | some i =>
      match fields[i]? with
      | none => .ok found
      | some f => do return found.set i (some (← f.shape.ofValue kv.2))
  let found ← members.foldlM step (fields.map fun _ => none)
  complete fields found

/-- Reads a record from the items of an array value: one item per field in order. -/
def ofItems (name : String) (fields : List Field) (items : List Value) :
    Except Error (List Value) := do
  let values ← fields.zipIdx.mapM fun (f, i) =>
    match items[i]?, f.default with
    | some v, _ => f.shape.ofValue v
    | none, some d => .ok d
    | none, none => throw (Error.ofMismatch (.invalidLength i (arrayExpecting name fields)))
  if items.length > fields.length then
    throw (Error.ofMismatch (.invalidLength items.length "fewer elements in array"))
  return values

/-- Reads the members of a record's object form from text, up to the closing brace. -/
def readMembers (fields : List Field) (first : Bool) (found : List (Option Value)) :
    Nat → Reader (List (Option Value))
  | 0 => Reader.fail .recursionLimit
  | fuel + 1 => do
    match ← Reader.nextKey first with
    | none => return found
    | some key =>
      match fieldIndex fields key with
      | none =>
        Reader.expectColon
        Reader.skipValue
        readMembers fields false found fuel
      | some i =>
        match fields[i]?, found[i]? with
        | some f, some none =>
          Reader.expectColon
          let v ← f.shape.read
          readMembers fields false (found.set i (some v)) fuel
        | some f, _ => Reader.mismatch (.duplicateField f.name)
        | none, _ => readMembers fields false found fuel

/-- Reads the fields of a record's array form from text, one element per field. -/
def readItems (name : String) (fields : List Field) : List Field → Nat → Reader (List Value)
  | [], _ => return []
  | f :: rest, i => do
    let v ← if ← Reader.nextElement (i = 0) then f.shape.read
      else match f.default with
        | some d => pure d
        | none => Reader.mismatch (.invalidLength i (arrayExpecting name fields))
    return v :: (← readItems name fields rest (i + 1))

end Record

/-- A record called `name` with the given fields; its values are those of the fields, in
declaration order. -/
def Shape.record (name : String) (fields : List Field) : Shape (List Value) where
  expecting := "struct " ++ name
  ofValue
    | .object members => Record.ofMembers fields members
    | .array items => Record.ofItems name fields items
    | v => Shape.wrongType v ("struct " ++ name)
  read := Reader.placing do
    match ← Reader.skipBlanks with
    | none => Reader.failPeek .eofInValue
    | some b =>
      if b = 91 then
        Shape.bracketed (Record.readItems name fields fields 0) Reader.closeArray
      else if b = 123 then
        Shape.bracketed (do
          let found ← Record.readMembers fields true (fields.map fun _ => none) (← Reader.fuel)
          match Record.complete fields found with
          | .ok vs => return vs
          | .error e => throw e) Reader.closeObject
      else Shape.wrongTypeHere ("struct " ++ name)

end RegionTrack.Json

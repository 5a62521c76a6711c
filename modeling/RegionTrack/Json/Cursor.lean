import RegionTrack.Json.Error

/-!
# The reading cursor

Text is read byte by byte, with one byte of look-ahead. Two ways of counting positions are
in use, and they differ only in where an error is placed:

* reading a complete text (`Mode.text`): an error stands after the bytes consumed, and an error
  about the byte looked at stands after that byte;
* reading a stream (`Mode.stream`): the bytes are pulled from the stream one at a time, and an
  error stands after every byte pulled so far, the one looked at included.

The cursor also carries how many levels of nesting are still allowed: 128 levels in all.
-/

namespace RegionTrack.Json

/-- How positions of errors are counted. -/
inductive Mode where
  /-- A complete text: errors stand after the consumed bytes, or after the byte looked at. -/
  | text
  /-- A stream: errors stand after every byte pulled, the one looked at included. -/
  | stream
deriving Repr, DecidableEq

/-- The state of a reader. -/
structure Cursor where
  mode : Mode
  /-- The whole input, for positions. -/
  input : List UInt8
  /-- The bytes not yet consumed. -/
  rest : List UInt8
  /-- The number of bytes consumed. -/
  offset : Nat
  /-- In a stream, the next byte has been pulled to look at it. -/
  pulled : Bool
  /-- The levels of nesting still allowed. -/
  depth : Nat

/-- A cursor at the start of `input`. -/
def Cursor.start (mode : Mode) (input : List UInt8) : Cursor :=
  ⟨mode, input, input, 0, false, 128⟩

/-- Reading: a state over the cursor, and an error that leaves the cursor where it stopped. -/
abbrev Reader := ExceptT Error (StateM Cursor)

/-- The offset at which an error about what was consumed stands. -/
def Cursor.errorOffset (c : Cursor) : Nat :=
  c.offset + (if c.pulled then 1 else 0)

/-- The offset at which an error about the byte looked at stands. -/
def Cursor.peekOffset (c : Cursor) : Nat :=
  match c.mode with
  | .text => min (c.offset + 1) c.input.length
  | .stream => c.offset + (if c.pulled then 1 else 0)

namespace Reader

/-- The position after the consumed bytes. -/
def position : Reader Position := do
  let c ← get
  return Position.ofOffset c.input c.errorOffset

/-- Fails with a syntax error about what was consumed. -/
def fail {α : Type} (e : Malformed) : Reader α := do
  throw ⟨.malformed e, some (← position)⟩

/-- Fails with a syntax error about the byte looked at. -/
def failPeek {α : Type} (e : Malformed) : Reader α := do
  let c ← get
  throw ⟨.malformed e, some (Position.ofOffset c.input c.peekOffset)⟩

/-- Gives an error without a position the position after the consumed bytes. -/
def placed (e : Error) : Reader Error := do
  match e.position with
  | some _ => return e
  | none => return { e with position := some (← position) }

/-- Runs a reader, placing an error without a position where the reader stopped. -/
def placing {α : Type} (r : Reader α) : Reader α :=
  tryCatch r fun e => do throw (← placed e)

/-- Fails with a mismatch that is placed later, by the reader of the enclosing value. -/
def mismatch {α : Type} (m : Mismatch) : Reader α :=
  throw (Error.ofMismatch m)

/-- Looks at the next byte without consuming it. -/
def peek : Reader (Option UInt8) := do
  let c ← get
  match c.rest with
  | [] => return none
  | b :: _ =>
    if c.mode = .stream then set { c with pulled := true }
    return some b

/-- Looks at the next byte, with 0 at the end of the input. -/
def peekOrNull : Reader UInt8 := do
  return (← peek).getD 0

/-- Consumes the next byte. -/
def eat : Reader Unit := do
  let c ← get
  match c.rest with
  | [] => pure ()
  | _ :: r => set { c with rest := r, offset := c.offset + 1, pulled := false }

/-- Consumes and returns the next byte. -/
def next : Reader (Option UInt8) := do
  let b ← peek
  eat
  return b

/-- Consumes the next byte, with 0 at the end of the input. -/
def nextOrNull : Reader UInt8 := do
  return (← next).getD 0

/-- A blank between tokens: space, tab, line feed or carriage return. -/
def isBlank (b : UInt8) : Bool := b = 32 || b = 9 || b = 10 || b = 13

/-- The number of leading blanks. -/
def blankCount : List UInt8 → Nat
  | [] => 0
  | b :: r => if isBlank b then blankCount r + 1 else 0

/-- Skips blanks and looks at the first byte after them. -/
def skipBlanks : Reader (Option UInt8) := do
  let c ← get
  let n := blankCount c.rest
  if n ≠ 0 then set { c with rest := c.rest.drop n, offset := c.offset + n, pulled := false }
  peek

/-- Enters one level of nesting, failing when the limit is reached. -/
def descend : Reader Unit := do
  let c ← get
  set { c with depth := c.depth - 1 }
  if c.depth - 1 = 0 then failPeek .recursionLimit

/-- Leaves one level of nesting. -/
def ascend : Reader Unit := modify fun c => { c with depth := c.depth + 1 }

/-- The fuel that bounds every loop over the rest of the input. -/
def fuel : Reader Nat := do
  return (← get).rest.length + 1

/-- An ASCII digit. -/
def isDigit (b : UInt8) : Bool := 48 ≤ b && b ≤ 57

/-- Reads the bytes of a word after its first letter (`ull` of `null`). -/
def expectWord : List UInt8 → Reader Unit
  | [] => pure ()
  | w :: ws => do
    match ← next with
    | none => fail .eofInValue
    | some b => if b = w then expectWord ws else fail .expectedIdent

end Reader

end RegionTrack.Json

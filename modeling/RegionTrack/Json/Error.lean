import RegionTrack.Json.Write
import RegionTrack.Text.Printable
import RegionTrack.FileRead

/-!
# Errors of reading JSON

A reading error has a cause and, when it arose while reading text, a position. Causes are of
two kinds: the text is not JSON (`Malformed`), or it is JSON of the wrong shape for what was
asked (`Mismatch`). A mismatch found while reading text gets the position at which the reader
stood when it was noticed; one found in an already-read value has none.

Positions count lines from 1 and columns in bytes since the last newline, so a column is the
number of bytes of its line that had been looked at.
-/

namespace RegionTrack.Json

/-- A place in a text: the line (from 1) and the number of bytes of it before the place. -/
structure Position where
  line : Nat
  column : Nat
deriving Repr, DecidableEq

/-- The position after the first `offset` bytes of `input`. -/
def Position.ofOffset (input : List UInt8) (offset : Nat) : Position :=
  (input.take offset).foldl
    (fun p b => if b = 10 then ⟨p.line + 1, 0⟩ else ⟨p.line, p.column + 1⟩) ⟨1, 0⟩

/-- Ways in which a text fails to be JSON. -/
inductive Malformed where
  | eofInList
  | eofInObject
  | eofInString
  | eofInValue
  | expectedColon
  | expectedListCommaOrEnd
  | expectedObjectCommaOrEnd
  | expectedIdent
  | expectedValue
  | invalidEscape
  | invalidNumber
  | numberOutOfRange
  | invalidCodePoint
  | controlCharacter
  | keyMustBeString
  | loneLeadingSurrogate
  | trailingComma
  | trailingCharacters
  | unexpectedEndOfHexEscape
  | recursionLimit
deriving Repr, DecidableEq

/-- The text of a malformation. -/
def Malformed.message : Malformed → String
  | .eofInList => "EOF while parsing a list"
  | .eofInObject => "EOF while parsing an object"
  | .eofInString => "EOF while parsing a string"
  | .eofInValue => "EOF while parsing a value"
  | .expectedColon => "expected `:`"
  | .expectedListCommaOrEnd => "expected `,` or `]`"
  | .expectedObjectCommaOrEnd => "expected `,` or `\x7d`"
  | .expectedIdent => "expected ident"
  | .expectedValue => "expected value"
  | .invalidEscape => "invalid escape"
  | .invalidNumber => "invalid number"
  | .numberOutOfRange => "number out of range"
  | .invalidCodePoint => "invalid unicode code point"
  | .controlCharacter => "control character (\\u0000-\\u001F) found while parsing a string"
  | .keyMustBeString => "key must be a string"
  | .loneLeadingSurrogate => "lone leading surrogate in hex escape"
  | .trailingComma => "trailing comma"
  | .trailingCharacters => "trailing characters"
  | .unexpectedEndOfHexEscape => "unexpected end of hex escape"
  | .recursionLimit => "recursion limit exceeded"

/-- What was found where something else was expected. -/
inductive Unexpected where
  | bool (b : Bool)
  | unsigned (n : Nat)
  | signed (n : Int)
  | float (x : Float)
  | string (s : String)
  | null
  | seq
  | map

/-- The unexpected content a number stands for. -/
def Number.unexpected : Number → Unexpected
  | .unsigned n => .unsigned n
  | .negative n => .signed n
  | .float x => .float x

/-- The unexpected content a value stands for. -/
def Value.unexpected : Value → Unexpected
  | .null => .null
  | .bool b => .bool b
  | .number n => n.unexpected
  | .string s => .string s
  | .array _ => .seq
  | .object _ => .map

/-- The character is shown as it is inside a quoted string of a message: it is printable and
does not extend a grapheme. -/
def showsPlain (c : Char) : Bool := Text.isPrintable c && !Text.isGraphemeExtend c

/-- Lower-case hexadecimal digits of `n`, without leading zeros. -/
def hexText (n : Nat) : List Char :=
  if n < 16 then [hexDigit n] else hexText (n / 16) ++ [hexDigit (n % 16)]
termination_by n
decreasing_by omega

/-- One character of a string shown in a message. -/
def showChar (c : Char) : List Char :=
  match c with
  | '\x00' => ['\\', '0']
  | '\t' => ['\\', 't']
  | '\r' => ['\\', 'r']
  | '\n' => ['\\', 'n']
  | '\\' => ['\\', '\\']
  | '"' => ['\\', '"']
  | c => if showsPlain c then [c] else ['\\', 'u', '\x7b'] ++ hexText c.toNat ++ ['\x7d']

/-- A string in double quotes as messages show it. -/
def showString (s : String) : String :=
  String.ofList ('"' :: (s.toList.flatMap showChar ++ ['"']))

/-- How a message names unexpected content. -/
def Unexpected.describe : Unexpected → String
  | .bool b => "boolean `" ++ (if b then "true" else "false") ++ "`"
  | .unsigned n => "integer `" ++ toString n ++ "`"
  | .signed n => "integer `" ++ toString n ++ "`"
  | .float x => "floating point `" ++ floatFormat.render x ++ "`"
  | .string s => "string " ++ showString s
  | .null => "null"
  | .seq => "sequence"
  | .map => "map"

/-- Ways in which JSON has the wrong shape. -/
inductive Mismatch where
  | invalidType (found : Unexpected) (expected : String)
  | invalidValue (found : Unexpected) (expected : String)
  | invalidLength (length : Nat) (expected : String)
  | missingField (name : String)
  | duplicateField (name : String)
  | unknownVariant (name : String) (variants : List String)

/-- The list of variant names in a message: one, two joined by `or`, or `one of …`. -/
def variantList : List String → String
  | [] => "there are no variants"
  | [a] => "`" ++ a ++ "`"
  | [a, b] => "`" ++ a ++ "` or `" ++ b ++ "`"
  | names => "one of " ++ ", ".intercalate (names.map fun n => "`" ++ n ++ "`")

/-- The text of a mismatch. -/
def Mismatch.message : Mismatch → String
  | .invalidType found exp => "invalid type: " ++ found.describe ++ ", expected " ++ exp
  | .invalidValue found exp => "invalid value: " ++ found.describe ++ ", expected " ++ exp
  | .invalidLength n exp => "invalid length " ++ toString n ++ ", expected " ++ exp
  | .missingField name => "missing field `" ++ name ++ "`"
  | .duplicateField name => "duplicate field `" ++ name ++ "`"
  | .unknownVariant name variants =>
    "unknown variant `" ++ name ++ "`, expected " ++ variantList variants

/-- The cause of a reading error. -/
inductive Cause where
  | malformed (e : Malformed)
  | mismatch (m : Mismatch)
  /-- The stream the text comes from could not be read. -/
  | stream (e : OsError)

/-- The text of a cause. -/
def Cause.message : Cause → String
  | .malformed e => e.message
  | .mismatch m => m.message
  | .stream e => e.message

/-- A reading error: its cause, and where in the text it arose if it arose in text. -/
structure Error where
  cause : Cause
  position : Option Position

/-- A mismatch found in an already-read value. -/
def Error.ofMismatch (m : Mismatch) : Error := ⟨.mismatch m, none⟩

/-- The text of an error: the cause, then its line and column if it has a position. -/
def Error.message (e : Error) : String :=
  match e.position with
  | some p => e.cause.message ++ " at line " ++ toString p.line ++ " column " ++ toString p.column
  | none => e.cause.message

/-- The line of an error, or 0 when it has no position. -/
def Error.line (e : Error) : Nat :=
  match e.position with
  | some p => p.line
  | none => 0

end RegionTrack.Json

import RegionTrack.Json.Value
import RegionTrack.Decimal.Layout

/-!
# Writing JSON text

Two layouts of one value: compact (no blanks at all) and pretty (one item per line, two spaces
of indent per level, `": "` between key and value, `[]` and `{}` for empty containers).

Strings are quoted with the JSON escapes: a quote and a backslash get a backslash, the control
characters below U+0020 get their short escape or `\u00XX` with lower-case hex, and every other
character is written as it is. Floats are written by `floatFormat`; a float that is not
finite has no JSON form and is written `null`.
-/

namespace RegionTrack.Json

/-- Floats in JSON text: the shortest digits that read back, ties to even; positional when the
point stands at most 16 places after the first digit and fewer than 5 places before it (a whole
value keeps `.0`), otherwise with an exponent that always carries its sign (`1e+300`, `1e-7`). -/
def floatFormat : Decimal.Format where
  positional kk := decide (-5 < kk ∧ kk ≤ 16)
  pointZero := true
  exponentPlus := true
  tie := .toEven
  nan := "NaN"
  infinity := "inf"

/-- The text of a number; a float that is not finite is `null`. -/
def Number.text : Number → String
  | .unsigned n => toString n
  | .negative n => toString n
  | .float x => if x.isFinite then floatFormat.render x else "null"

/-- The lower-case hexadecimal digit of `n < 16`. -/
def hexDigit (n : Nat) : Char :=
  if n < 10 then Char.ofNat (48 + n) else Char.ofNat (87 + n)

/-- The escaped form of one character inside a JSON string. -/
def escapeChar (c : Char) : List Char :=
  match c with
  | '"' => ['\\', '"']
  | '\\' => ['\\', '\\']
  | '\n' => ['\\', 'n']
  | '\r' => ['\\', 'r']
  | '\t' => ['\\', 't']
  | c =>
    if c.toNat = 8 then ['\\', 'b']
    else if c.toNat = 12 then ['\\', 'f']
    else if c.toNat < 32 then ['\\', 'u', '0', '0', hexDigit (c.toNat / 16), hexDigit (c.toNat % 16)]
    else [c]

/-- A string as a quoted JSON string. -/
def quote (s : String) : String :=
  String.ofList ('"' :: (s.toList.flatMap escapeChar ++ ['"']))

/-- `2 * n` spaces. -/
def indentText (n : Nat) : String := String.ofList (List.replicate (2 * n) ' ')

mutual

/-- The compact text of a value. -/
def Value.compact : Value → String
  | .null => "null"
  | .bool b => if b then "true" else "false"
  | .number n => n.text
  | .string s => quote s
  | .array items => "[" ++ compactItems items ++ "]"
  | .object members => "\x7b" ++ compactMembers members ++ "\x7d"

/-- Compact items separated by commas. -/
def compactItems : List Value → String
  | [] => ""
  | v :: rest => v.compact ++ (match rest with
    | [] => ""
    | _ => "," ++ compactItems rest)

/-- Compact members separated by commas. -/
def compactMembers : List (String × Value) → String
  | [] => ""
  | (k, v) :: rest => quote k ++ ":" ++ v.compact ++ (match rest with
    | [] => ""
    | _ => "," ++ compactMembers rest)

end

mutual

/-- The pretty text of a value that stands at indent level `level`. -/
def Value.pretty (level : Nat) : Value → String
  | .array [] => "[]"
  | .array items => "[\n" ++ prettyItems (level + 1) items ++ "\n" ++ indentText level ++ "]"
  | .object [] => "\x7b\x7d"
  | .object members =>
    "\x7b\n" ++ prettyMembers (level + 1) members ++ "\n" ++ indentText level ++ "\x7d"
  | .null => "null"
  | .bool b => if b then "true" else "false"
  | .number n => n.text
  | .string s => quote s

/-- Pretty items, one per line at indent level `level`. -/
def prettyItems (level : Nat) : List Value → String
  | [] => ""
  | v :: rest => indentText level ++ v.pretty level ++ (match rest with
    | [] => ""
    | _ => ",\n" ++ prettyItems level rest)

/-- Pretty members, one per line at indent level `level`. -/
def prettyMembers (level : Nat) : List (String × Value) → String
  | [] => ""
  | (k, v) :: rest => indentText level ++ quote k ++ ": " ++ v.pretty level ++ (match rest with
    | [] => ""
    | _ => ",\n" ++ prettyMembers level rest)

end

/-- The pretty text of a value at the top level. -/
def Value.render (v : Value) : String := v.pretty 0

end RegionTrack.Json

import RegionTrack.Decimal.Shortest

/-!
# The float nearest to a decimal, and float literals

`nearest m e` is the binary64 value nearest to the real `m × 10^e`, an exact tie going to the
even significand; values beyond the largest finite float round to infinity and values below
half the least subnormal to zero. It is computed on naturals: the exact quotient gives the
significand at the float's own precision, and the remainder decides the rounding.

`readFloat` reads a float literal: an optional sign, then `inf`, `infinity` or `nan` in any
case, or digits with an optional point and an optional exponent (`e` or `E`, an optional sign,
digits), with at least one digit before the exponent. The empty text and every other text are
refused with two different causes.

## Main definitions

* `Decimal.nearest`: correctly rounded decimal to float
* `Decimal.readFloat`: float literals
-/

namespace RegionTrack.Decimal

/-- The number of decimal digits of a positive natural. -/
def digitCount (m : Nat) : Nat := (toString m).length

/-- `⌊log2 (num / den)⌋` for positive `num` and `den`: the bit lengths give it up to one,
and one exact comparison settles it. -/
def floorLog2 (num den : Nat) : Int :=
  let b : Int := (Nat.log2 num : Int) - (Nat.log2 den : Int)
  if num * Nat.pow 2 (-b).toNat < den * Nat.pow 2 b.toNat then b - 1 else b

/-- The float with significand `t` (below `2^53`) and exponent `q` (at least `-1074`), read
as `t × 2^q`: subnormal when `t < 2^52`, infinite when `q` is past the largest exponent. -/
def assemble (t : Nat) (q : Int) : Float :=
  if q > 971 then 1.0 / 0.0
  else if t < Nat.pow 2 52 then Float.ofBits (UInt64.ofNat t)
  else Float.ofBits (UInt64.ofNat ((q + 1075).toNat * Nat.pow 2 52 + (t - Nat.pow 2 52)))

/-- The float nearest to `num / den` (both positive), ties to even. -/
def nearestRatio (num den : Nat) : Float :=
  let q : Int := max (floorLog2 num den - 52) (-1074)
  let n := num * Nat.pow 2 (-q).toNat
  let d := den * Nat.pow 2 q.toNat
  let t := n / d
  let r := n % d
  let up := 2 * r > d || (2 * r = d && t % 2 = 1)
  let t := if up then t + 1 else t
  if t = Nat.pow 2 53 then assemble (Nat.pow 2 52) (q + 1) else assemble t q

/-- The float nearest to `m × 10^e`, ties to even. -/
def nearest (m : Nat) (e : Int) : Float :=
  if m = 0 then 0.0
  else
    let size : Int := (digitCount m : Int) + e
    if size > 310 then 1.0 / 0.0
    else if size < -324 then 0.0
    else nearestRatio (m * Nat.pow 10 e.toNat) (Nat.pow 10 (-e).toNat)

/-- Why a float literal was refused. -/
inductive FloatTextError where
  /-- The text is empty. -/
  | empty
  /-- The text is not a float literal. -/
  | invalid
deriving Repr, DecidableEq

/-- The text of a refusal. -/
def FloatTextError.message : FloatTextError → String
  | .empty => "cannot parse float from empty string"
  | .invalid => "invalid float literal"

/-- Splits off the leading decimal digits, as their value and their count. -/
def takeDigits : List Char → Nat → Nat → Nat × Nat × List Char
  | c :: rest, acc, n =>
    if c.isDigit then takeDigits rest (acc * 10 + (c.toNat - 48)) (n + 1) else (acc, n, c :: rest)
  | [], acc, n => (acc, n, [])

/-- An exponent: an optional sign and at least one digit, the whole rest of the text. -/
def readExponent (s : List Char) : Option Int :=
  let (neg, s) := match s with
    | '-' :: rest => (true, rest)
    | '+' :: rest => (false, rest)
    | _ => (false, s)
  match takeDigits s 0 0 with
  | (v, n, []) => if n = 0 then none else some (if neg then -(v : Int) else v)
  | _ => none

/-- Digits with an optional point and exponent, as `m × 10^e`. -/
def readDecimal (s : List Char) : Option (Nat × Int) :=
  let (whole, n1, s) := takeDigits s 0 0
  let (m, n2, s) := match s with
    | '.' :: rest =>
      let (frac, n2, rest) := takeDigits rest 0 0
      (whole * Nat.pow 10 n2 + frac, n2, rest)
    | _ => (whole, 0, s)
  if n1 + n2 = 0 then none
  else
    match s with
    | [] => some (m, -(n2 : Int))
    | c :: rest =>
      if c = 'e' || c = 'E' then (readExponent rest).map fun x => (m, x - n2) else none

/-- `inf`, `infinity` or `nan`, in any case. -/
def readSpecial (s : List Char) : Option Float :=
  match String.ofList (s.map Char.toLower) with
  | "inf" | "infinity" => some (1.0 / 0.0)
  | "nan" => some (Float.ofBits 0x7FF8000000000000)
  | _ => none

/-- Reads a float literal. -/
def readFloat (text : String) : Except FloatTextError Float :=
  match text.toList with
  | [] => .error .empty
  | c :: rest =>
    let (neg, body) := if c = '-' then (true, rest) else if c = '+' then (false, rest)
      else (false, c :: rest)
    let sign := fun (x : Float) => if neg then -x else x
    if body.isEmpty then .error .invalid
    else
      match readDecimal body with
      | some (m, e) => .ok (sign (nearest m e))
      | none =>
        match readSpecial body with
        | some x => .ok (sign x)
        | none => .error .invalid

end RegionTrack.Decimal

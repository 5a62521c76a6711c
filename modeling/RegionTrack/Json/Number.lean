import RegionTrack.Json.Cursor

/-!
# Reading JSON numbers

A number is read as an unsigned integer while its digits fit in 64 bits, as a negative integer
when its magnitude is at most `2^63`, and as a float otherwise. A float is made from a 64-bit
significand and a power of ten, `significand × 10^exponent`: the significand is rounded to a
float, then multiplied or divided once by the float nearest to `10^|exponent|` (which exists
up to `10^308`); below that the value is first divided by `10^308` until the exponent is in
range. This is not always the float nearest to the decimal: `0.9999999999999999` becomes `1.0`.

Digits that no longer fit in the significand are dropped: before the point each counts one
place of exponent, after the point they are ignored. An exponent too large for 32 bits makes
a non-zero number with a positive exponent an error, and any other number a zero. A finite
number that becomes infinite is an error, "number out of range".

The same grammar is checked without building a value by `skipNumber`, which never fails on
range.
-/

namespace RegionTrack.Json

namespace Reader

/-- The largest unsigned 64-bit integer. -/
def maxUnsigned : Nat := Nat.pow 2 64 - 1

/-- The largest signed 32-bit integer. -/
def maxExponent : Int := 2147483647

/-- Clamps an exponent to the signed 32-bit range. -/
def clampExponent (e : Int) : Int :=
  if e > maxExponent then maxExponent else if e < -2147483648 then -2147483648 else e

/-- The float nearest to `10^k`. -/
def powerOfTen (k : Nat) : Float := Float.ofScientific 1 false k

/-- Scales `f` by `10^exponent` as described above; `none` when the result overflows. The fuel
bounds the divisions by `10^308`, of which a 64-bit significand needs at most three. -/
def scaleByTen (f : Float) (exponent : Int) : Nat → Option Float
  | 0 => some f
  | fuel + 1 =>
    if exponent.natAbs ≤ 308 then
      let p := powerOfTen exponent.natAbs
      if exponent ≥ 0 then
        let g := f * p
        if g.isInf then none else some g
      else some (f / p)
    else if f == 0 then some f
    else if exponent ≥ 0 then none
    else scaleByTen (f / powerOfTen 308) (exponent + 308) fuel

/-- The float `±significand × 10^exponent`, or "number out of range". -/
def floatOfParts (positive : Bool) (significand : Nat) (exponent : Int) : Reader Float :=
  match scaleByTen (Float.ofNat significand) exponent 8 with
  | some f => pure (if positive then f else -f)
  | none => fail .numberOutOfRange

/-- The digit a byte stands for. -/
def digitValue (b : UInt8) : Nat := (b - 48).toNat

/-- Skips a run of digits. -/
def skipDigits : Nat → Reader Unit
  | 0 => pure ()
  | fuel + 1 => do
    if isDigit (← peekOrNull) then
      eat
      skipDigits fuel
    else pure ()

/-- An exponent too large for 32 bits: an error for a non-zero significand and a positive
exponent, otherwise a zero after skipping the remaining digits. -/
def exponentOverflow (positive zeroSignificand positiveExponent : Bool) : Reader Float := do
  if !zeroSignificand && positiveExponent then fail .numberOutOfRange
  else
    skipDigits (← fuel)
    return if positive then 0.0 else -0.0

/-- The digits of an exponent after its first one. -/
def exponentDigits (positive : Bool) (significand : Nat) (start : Int) (positiveExponent : Bool)
    (exp : Nat) : Nat → Reader Float
  | 0 => fail .invalidNumber
  | fuel + 1 => do
    let b ← peekOrNull
    if isDigit b then
      eat
      let e := exp * 10 + digitValue b
      if (e : Int) > maxExponent then
        exponentOverflow positive (significand = 0) positiveExponent
      else exponentDigits positive significand start positiveExponent e fuel
    else
      let final := clampExponent (if positiveExponent then start + exp else start - exp)
      floatOfParts positive significand final

/-- An exponent part, from its `e` or `E` on. -/
def readExponent (positive : Bool) (significand : Nat) (start : Int) : Reader Float := do
  eat
  let b ← peekOrNull
  let positiveExponent ← if b = 43 then do eat; pure true
    else if b = 45 then do eat; pure false
    else pure true
  match ← next with
  | none => fail .eofInValue
  | some d =>
    if isDigit d then exponentDigits positive significand start positiveExponent (digitValue d) (← fuel)
    else fail .invalidNumber

/-- After the significand is full: the remaining fraction digits are dropped. -/
def fractionOverflow (positive : Bool) (significand : Nat) (exponent : Int) : Reader Float := do
  skipDigits (← fuel)
  let b ← peekOrNull
  if b = 101 || b = 69 then readExponent positive significand exponent
  else floatOfParts positive significand exponent

/-- The digits of a fraction; `places` counts those taken into the significand. -/
def fractionDigits (positive : Bool) (significand : Nat) (start : Int) (places : Nat) :
    Nat → Reader Float
  | 0 => fail .invalidNumber
  | fuel + 1 => do
    let b ← peekOrNull
    if isDigit b then
      let s := significand * 10 + digitValue b
      if s > maxUnsigned then fractionOverflow positive significand (start - places)
      else
        eat
        fractionDigits positive s start (places + 1) fuel
    else if places = 0 then
      match ← peek with
      | some _ => failPeek .invalidNumber
      | none => failPeek .eofInValue
    else if b = 101 || b = 69 then readExponent positive significand (start - places)
    else floatOfParts positive significand (start - places)

/-- A fraction part, from its point on. -/
def readFraction (positive : Bool) (significand : Nat) (start : Int) : Reader Float := do
  eat
  fractionDigits positive significand start 0 (← fuel)

/-- Integer digits that no longer fit: each counts one place of exponent. -/
def longDigits (positive : Bool) (significand : Nat) (exponent : Int) : Nat → Reader Float
  | 0 => fail .invalidNumber
  | fuel + 1 => do
    let b ← peekOrNull
    if isDigit b then
      eat
      longDigits positive significand (exponent + 1) fuel
    else if b = 46 then readFraction positive significand exponent
    else if b = 101 || b = 69 then readExponent positive significand exponent
    else floatOfParts positive significand exponent

/-- What follows the integer digits: a fraction, an exponent, or nothing. -/
def numberTail (positive : Bool) (significand : Nat) : Reader Number := do
  let b ← peekOrNull
  if b = 46 then return .float (← readFraction positive significand 0)
  else if b = 101 || b = 69 then return .float (← readExponent positive significand 0)
  else if positive then return .unsigned significand
  else if 1 ≤ significand ∧ significand ≤ Nat.pow 2 63 then return .negative (-(significand : Int))
  else return .float (-(Float.ofNat significand))

/-- Integer digits after the first, while they fit in 64 bits. -/
def integerDigits (positive : Bool) (significand : Nat) : Nat → Reader Number
  | 0 => fail .invalidNumber
  | fuel + 1 => do
    let b ← peekOrNull
    if isDigit b then
      let s := significand * 10 + digitValue b
      if s > maxUnsigned then return .float (← longDigits positive significand 0 (← Reader.fuel))
      else
        eat
        integerDigits positive s fuel
    else numberTail positive significand

/-- A number after its sign: `positive` is false when a `-` was consumed. -/
def readNumber (positive : Bool) : Reader Number := do
  match ← next with
  | none => fail .eofInValue
  | some b =>
    if b = 48 then
      if isDigit (← peekOrNull) then failPeek .invalidNumber
      else numberTail positive 0
    else if isDigit b then integerDigits positive (digitValue b) (← fuel)
    else fail .invalidNumber

/-- Checks an exponent part without reading its value. -/
def skipExponent : Reader Unit := do
  eat
  let b ← peekOrNull
  if b = 43 || b = 45 then eat
  if isDigit (← nextOrNull) then skipDigits (← fuel)
  else fail .invalidNumber

/-- Checks a number after its sign without reading its value. -/
def skipNumber : Reader Unit := do
  let b ← nextOrNull
  if b = 48 then
    if isDigit (← peekOrNull) then failPeek .invalidNumber
  else if isDigit b then skipDigits (← fuel)
  else fail .invalidNumber
  let c ← peekOrNull
  if c = 46 then
    eat
    let before ← get
    skipDigits (← fuel)
    let after ← get
    if after.offset = before.offset then failPeek .invalidNumber
    else if (← peekOrNull) = 101 || (← peekOrNull) = 69 then skipExponent
  else if c = 101 || c = 69 then skipExponent

end Reader

end RegionTrack.Json

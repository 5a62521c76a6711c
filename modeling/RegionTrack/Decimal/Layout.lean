import RegionTrack.Decimal.Shortest

/-!
# Laying out shortest digits

Which digits a float gets is fixed by `Binary.shortest`; how they are written is a handful of
decisions that differ from format to format. They are the fields of one `Format` record, and
`Format.render` is the single function that applies them.

A decimal `d₁d₂…dₙ × 10^e` has its point `kk = n + e` places after the first digit. Written
positionally the point is after the digits (padded with zeros), inside them, or before them
(after `0.` and zeros); written scientifically the mantissa is `d₁.d₂…dₙ` and the exponent
`kk - 1`.
-/

namespace RegionTrack.Decimal

/-- The layout decisions of one float format. -/
structure Format where
  /-- The point positions `kk` that are written positionally. -/
  positional : Int → Bool
  /-- A whole value written positionally keeps a `.0`. -/
  pointZero : Bool
  /-- A non-negative exponent is written with a `+`. -/
  exponentPlus : Bool
  /-- The tie rule of the digit search. -/
  tie : Tie
  /-- The text of a NaN. -/
  nan : String
  /-- The text of positive infinity; negative infinity has a `-` in front. -/
  infinity : String

/-- `n` zeros. -/
def zeros (n : Nat) : String := String.ofList (List.replicate n '0')

/-- The digits `ds` times `10^e`, written positionally. -/
def Format.positionalText (fmt : Format) (ds : String) (e : Int) : String :=
  let n : Int := ds.length
  let kk := n + e
  if 0 ≤ e then
    ds ++ zeros e.toNat ++ (if fmt.pointZero then ".0" else "")
  else if 0 < kk then
    String.ofList (ds.toList.take kk.toNat) ++ "." ++ String.ofList (ds.toList.drop kk.toNat)
  else
    "0." ++ zeros (-kk).toNat ++ ds

/-- The digits `ds` times `10^e`, written with an exponent. -/
def Format.scientificText (fmt : Format) (ds : String) (e : Int) : String :=
  let n : Int := ds.length
  let x := n + e - 1
  let mantissa := match ds.toList with
    | [] => "0"
    | [d] => String.singleton d
    | d :: rest => String.singleton d ++ "." ++ String.ofList rest
  let sign := if x < 0 then "-" else if fmt.exponentPlus then "+" else ""
  mantissa ++ "e" ++ sign ++ toString x.natAbs

/-- The text of a non-negative decimal under this notation. -/
def Format.decimalText (fmt : Format) (d : Dec) : String :=
  let ds := toString d.digits
  if fmt.positional (ds.length + d.exp) then fmt.positionalText ds d.exp
  else fmt.scientificText ds d.exp

/-- The text of a float: its sign, then the special value or the laid-out shortest digits. -/
def Format.render (fmt : Format) (x : Float) : String :=
  let bits := x.toBits
  let negative := bits >>> 63 == 1
  let sign := if negative then "-" else ""
  if x.isNaN then fmt.nan
  else if x.isInf then sign ++ fmt.infinity
  else
    let b := Binary.ofBits bits
    if b.m = 0 then sign ++ (if fmt.pointZero then "0.0" else "0")
    else sign ++ fmt.decimalText (b.shortest fmt.tie)

end RegionTrack.Decimal

/-!
# Shortest decimal digits of a binary64 value

A finite float stands for the interval of reals that round back to it. The digits printed for
it are those of a decimal with the fewest significant digits inside that interval; of two such
decimals on the same grid the nearer to the value is taken, and an exact tie is settled by a
`Tie` rule chosen by the format.

Everything here runs on exact naturals: the float is decoded from its bits into `m * 2^q`, the
interval is tested by cross-multiplication (`Binary.readsBack`), and the search walks the
decimal grids `10^(k-1), 10^(k-2), …` from the coarsest down, testing only the two grid points
that surround the value.
-/

namespace RegionTrack.Decimal

/-- A finite non-negative binary64 magnitude `m * 2^q`. -/
structure Binary where
  m : Nat
  q : Int
  /-- The gap to the float below is half the gap to the float above. -/
  narrowBelow : Bool
deriving Repr, DecidableEq

/-- Decodes the magnitude bits of a finite float; the sign bit is ignored. -/
def Binary.ofBits (b : UInt64) : Binary :=
  let e := ((b >>> 52) &&& 0x7FF).toNat
  let f := (b &&& 0xFFFFFFFFFFFFF).toNat
  if e = 0 then ⟨f, -1074, false⟩ else ⟨Nat.pow 2 52 + f, (e : Int) - 1075, f = 0 && e > 1⟩

/-- The decimal `digits * 10^exp`. -/
structure Dec where
  digits : Nat
  exp : Int
deriving Repr, DecidableEq

/-- How an exact tie between two equally near decimals of one length is settled. -/
inductive Tie where
  /-- The decimal whose last digit is even. -/
  | toEven
  /-- The larger decimal. -/
  | up
deriving Repr, DecidableEq

/-- Compares `a * 10^i` with `n * 2^j` exactly. -/
def cmpScaled (a : Nat) (i : Int) (n : Nat) (j : Int) : Ordering :=
  compare (a * Nat.pow 10 i.toNat * Nat.pow 2 (-j).toNat)
    (n * Nat.pow 2 j.toNat * Nat.pow 10 (-i).toNat)

/-- The decimal lies among the reals that round to `x` (to nearest, ties to even): strictly
inside the half-gaps around `x`, ends included exactly when `m` is even. -/
def Binary.readsBack (x : Binary) (d : Dec) : Bool :=
  let lo := if x.narrowBelow then 4 * x.m - 1 else 4 * x.m - 2
  let hi := 4 * x.m + 2
  let incl := x.m % 2 == 0
  let cl := cmpScaled d.digits d.exp lo (x.q - 2)
  let ch := cmpScaled d.digits d.exp hi (x.q - 2)
  (cl == .gt || (incl && cl == .eq)) && (ch == .lt || (incl && ch == .eq))

/-- `x` is below `10^k`. -/
def Binary.below (x : Binary) (k : Int) : Bool :=
  cmpScaled 1 k x.m x.q == .gt

/-- Moves a guess of the scale upward until `x < 10^k`, at most `fuel` steps. -/
def Binary.scaleUp (x : Binary) : Nat → Int → Int
  | 0, k => k
  | fuel + 1, k => if x.below k then k else x.scaleUp fuel (k + 1)

/-- Moves a guess of the scale downward while `x < 10^(k-1)`, at most `fuel` steps. -/
def Binary.scaleDown (x : Binary) : Nat → Int → Int
  | 0, k => k
  | fuel + 1, k => if x.below (k - 1) then x.scaleDown fuel (k - 1) else k

/-- The least `k` with `x < 10^k`, for a non-zero `x`: a guess from the binary length,
corrected by exact comparisons (`78913 / 2^18` is just below `log10 2`). -/
def Binary.scale (x : Binary) : Int :=
  let bits : Int := (Nat.log2 x.m : Int) + 1 + x.q
  let guess := Int.fdiv ((bits - 1) * 78913) 262144
  x.scaleDown 4 (x.scaleUp 4 guess)

/-- The two points of the grid `10^e` around `x`, as `(⌊x / 10^e⌋, twice x over the grid
compared with the midpoint)`: the ordering says where `x` lies between the two points. -/
def Binary.gridNeighbours (x : Binary) (e : Int) : Nat × Ordering :=
  let num := x.m * Nat.pow 2 x.q.toNat * Nat.pow 10 (-e).toNat
  let den := Nat.pow 2 (-x.q).toNat * Nat.pow 10 e.toNat
  let lo := num / den
  (lo, compare (2 * num) ((2 * lo + 1) * den))

/-- The decimal of the grid `10^e` that is chosen for `x`, if one of its two neighbours of
`x` reads back: the nearer one, or the one that `tie` picks. -/
def Binary.onGrid (tie : Tie) (x : Binary) (e : Int) : Option Dec :=
  let (lo, side) := x.gridNeighbours e
  let down : Dec := ⟨lo, e⟩
  let upper : Dec := ⟨lo + 1, e⟩
  match x.readsBack down, x.readsBack upper with
  | false, false => none
  | true, false => some down
  | false, true => some upper
  | true, true =>
    match side with
    | .lt => some down
    | .gt => some upper
    | .eq =>
      match tie with
      | .up => some upper
      | .toEven => if lo % 2 = 0 then some down else some upper

/-- Divides out trailing zeros of the digits into the exponent. -/
def Dec.normalize (d : Dec) : Dec :=
  if h : d.digits ≠ 0 ∧ d.digits % 10 = 0 then
    Dec.normalize ⟨d.digits / 10, d.exp + 1⟩
  else d
termination_by d.digits
decreasing_by exact Nat.div_lt_self (Nat.pos_of_ne_zero h.1) (by decide)

/-- The exact decimal value of `x`. -/
def Binary.exact (x : Binary) : Dec :=
  if x.q < 0 then ⟨x.m * Nat.pow 5 (-x.q).toNat, x.q⟩ else ⟨x.m * Nat.pow 2 x.q.toNat, 0⟩

/-- The shortest decimal that reads back as the non-zero `x`: the grids of one to seventeen
significant digits are tried in turn, and the exact value stands behind them. -/
def Binary.shortest (tie : Tie) (x : Binary) : Dec :=
  let k := x.scale
  let found := (List.range 17).findSome? fun n => x.onGrid tie (k - (n + 1 : Nat))
  (found.getD x.exact).normalize

end RegionTrack.Decimal

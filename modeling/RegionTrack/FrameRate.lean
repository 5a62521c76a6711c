import RegionTrack.Error

/-!
# Frame rates and frame ranges

A frame rate is a fraction `num / den` of frames per second with both terms positive; the
positivity is part of the type, so every rate in the library is usable. A frame lasts
`den / num` seconds, and frame `n` starts at `n × den / num` seconds (as floats: the frame is
rounded to a float and multiplied by the rounded duration).

A rate is written `num/den` or `num` (meaning `num/1`). Each term is trimmed of white space and
read as an unsigned 32-bit integer with an optional leading `+`; the numerator is read first,
then the denominator, and only then are zero terms refused, the denominator first.

A frame range is a half-open interval `[start, stop)` of frames with `start ≤ stop`.
-/

namespace RegionTrack

/-- A positive rational frame rate: `num / den` frames per second. -/
structure FrameRate where
  num : Nat
  den : Nat
  num_pos : 0 < num := by decide
  den_pos : 0 < den := by decide

namespace FrameRate

/-- One frame per second. -/
def unit : FrameRate := ⟨1, 1, by decide, by decide⟩

/-- The rate `num / den`, refusing a zero denominator first and then a zero numerator. -/
def make (num den : Nat) : Except TrackError FrameRate :=
  if hd : den = 0 then .error .zeroDenominator
  else if hn : num = 0 then .error .zeroNumerator
  else .ok ⟨num, den, Nat.pos_of_ne_zero hn, Nat.pos_of_ne_zero hd⟩

/-- Frames per second as a float. -/
def perSecond (r : FrameRate) : Float := Float.ofNat r.num / Float.ofNat r.den

/-- The duration of one frame in seconds. -/
def frameDuration (r : FrameRate) : Float := Float.ofNat r.den / Float.ofNat r.num

/-- The start of frame `n` in seconds. -/
def secondsAt (r : FrameRate) (n : Nat) : Float := Float.ofNat n * r.frameDuration

end FrameRate

/-- The white space characters of Unicode. -/
def isWhiteSpace (c : Char) : Bool :=
  let n := c.toNat
  (9 ≤ n && n ≤ 13) || n = 32 || n = 0x85 || n = 0xA0 || n = 0x1680 ||
    (0x2000 ≤ n && n ≤ 0x200A) || n = 0x2028 || n = 0x2029 || n = 0x202F || n = 0x205F ||
    n = 0x3000

/-- Text without leading and trailing white space. -/
def trimWhiteSpace (s : List Char) : List Char :=
  ((s.dropWhile isWhiteSpace).reverse.dropWhile isWhiteSpace).reverse

/-- Accumulates decimal digits, failing on a non-digit or once the value exceeds `max`. -/
def accumulateDigits (max : Nat) (acc : Nat) : List Char → Except IntegerError Nat
  | [] => .ok acc
  | c :: rest =>
    if c.isDigit then
      let v := acc * 10 + (c.toNat - 48)
      if v > max then .error .overflow else accumulateDigits max v rest
    else .error .invalidDigit

/-- Reads an unsigned decimal integer at most `max`, with an optional leading `+`. -/
def parseUnsigned (max : Nat) (s : List Char) : Except IntegerError Nat :=
  match s with
  | [] => .error .empty
  | ['+'] | ['-'] => .error .invalidDigit
  | '+' :: rest => accumulateDigits max 0 rest
  | _ => accumulateDigits max 0 s

/-- The largest unsigned 32-bit integer. -/
def maxU32 : Nat := Nat.pow 2 32 - 1

/-- The largest unsigned 64-bit integer. -/
def maxU64 : Nat := Nat.pow 2 64 - 1

namespace FrameRate

/-- Splits at the first `/`; without one the denominator is `1`. -/
def splitTerms (s : List Char) : List Char × List Char :=
  match s.span (· ≠ '/') with
  | (n, _ :: d) => (trimWhiteSpace n, trimWhiteSpace d)
  | (n, []) => (trimWhiteSpace n, ['1'])

/-- Reads a rate written `num/den` or `num`. -/
def parse (s : String) : Except TrackError FrameRate :=
  let (n, d) := splitTerms s.toList
  match parseUnsigned maxU32 n with
  | .error e => .error (.badRateTerm true (String.ofList n) e)
  | .ok num =>
    match parseUnsigned maxU32 d with
    | .error e => .error (.badRateTerm false (String.ofList d) e)
    | .ok den => make num den

end FrameRate

/-- The frames `start, start + 1, …, stop - 1`. -/
structure FrameSpan where
  start : Nat
  stop : Nat
  start_le : start ≤ stop

namespace FrameSpan

/-- The range `[start, stop)`, refused when it would end before it starts. -/
def make (start stop : Nat) : Except TrackError FrameSpan :=
  if h : start ≤ stop then .ok ⟨start, stop, h⟩ else .error .reversedRange

/-- The number of frames. -/
def length (r : FrameSpan) : Nat := r.stop - r.start

/-- Whether the range holds no frame. -/
def isEmpty (r : FrameSpan) : Bool := r.start = r.stop

/-- Whether frame `f` is in the range. -/
def contains (r : FrameSpan) (f : Nat) : Bool := r.start ≤ f && f < r.stop

/-- The frames of the range in increasing order. -/
def frames (r : FrameSpan) : List Nat := List.range' r.start r.length

/-- The first `n` frames of the range, or all of them if it has fewer. -/
def firstFrames (r : FrameSpan) (n : Nat) : List Nat := List.range' r.start (min n r.length)

end FrameSpan

end RegionTrack

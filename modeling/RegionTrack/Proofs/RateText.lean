import Mathlib.Data.List.TakeDrop
import Mathlib.Data.List.TakeWhile
import RegionTrack.FrameRate

/-!
# Reading a frame rate from text

A rate is written `num/den`, or `num` for `num/1`: the text is split at its first `/`, and each
side is trimmed of white space and read as an unsigned 32-bit integer. Reading a term looks past
an optional leading `+` and accumulates decimal digits from the left. It fails at the first
character that is not a digit, or as soon as the value grows past the bound, whichever comes
first; an empty term fails at once, and a lone `+` fails as a non-digit.

`readTerm` states that outcome from the text alone: what the digits opening the term's body are
worth, and whether they make up the whole body. `parseUnsigned_eq_readTerm` shows that the scan
computes it, and `readTerm_eq_ok_iff` names the terms that are read: an optional `+` and one or
more digits worth at most the bound. A rate is refused with the text of its first failure: the
numerator's, else the denominator's, else a zero denominator, else a zero numerator.

## Main results

* `accumulateDigits_eq`, `parseUnsigned_eq_readTerm`: the digit scan, stated declaratively
* `readTerm_eq_ok_iff`: the terms that are read
* `FrameRate.parse_outcomes`: the rate read from any text, and the text of every refusal
-/

namespace RegionTrack

/-! ## The outcome of reading a term -/

/-- The body of a term: the text after its leading `+`, if it has one. -/
def termBody : List Char → List Char
  | '+' :: rest => rest
  | s => s

/-- The digits that open the body of a term, up to its first non-digit. -/
def leadingDigits (s : List Char) : List Char := (termBody s).takeWhile Char.isDigit

/-- The value of the digits that open the body of a term. -/
def leadingValue (s : List Char) : Nat := Nat.ofDigitChars 10 (leadingDigits s) 0

/-- The outcome of reading a term as an unsigned integer at most `max`. An empty term is empty.
When the digits opening the body are worth more than `max`, the value passed `max` before
anything after them was met. Otherwise a body that is empty (a lone `+`) or does not consist of
its leading digits fails at a non-digit, and a body of digits gives its value. -/
def readTerm (max : Nat) (s : List Char) : Except IntegerError Nat :=
  if s = [] then .error .empty
  else if max < leadingValue s then .error .overflow
  else if termBody s ≠ [] ∧ leadingDigits s = termBody s then .ok (leadingValue s)
  else .error .invalidDigit

/-- The term `s` is an optional `+` and one or more decimal digits, worth `v ≤ max`. -/
def IsTerm (max v : Nat) (s : List Char) : Prop :=
  ∃ ds, (s = ds ∨ s = '+' :: ds) ∧ ds ≠ [] ∧ (∀ c ∈ ds, c.isDigit = true) ∧
    Nat.ofDigitChars 10 ds 0 = v ∧ v ≤ max

theorem le_ofDigitChars (l : List Char) (init : Nat) : init ≤ Nat.ofDigitChars 10 l init := by
  rw [Nat.ofDigitChars_eq_ofDigitChars_zero]
  exact Nat.le_add_right_of_le (Nat.le_mul_of_pos_left init (Nat.pow_pos (by decide)))

/-- **The digit scan, stated declaratively.** From a value at most `max`, the scan overflows
when the leading digits take the value past `max`, fails at a non-digit when something follows
them, and gives their value otherwise. -/
theorem accumulateDigits_eq {max acc : Nat} (h : acc ≤ max) (cs : List Char) :
    accumulateDigits max acc cs =
      if max < Nat.ofDigitChars 10 (cs.takeWhile Char.isDigit) acc then .error .overflow
      else if cs.takeWhile Char.isDigit = cs then
        .ok (Nat.ofDigitChars 10 (cs.takeWhile Char.isDigit) acc)
      else .error .invalidDigit := by
  induction cs generalizing acc with
  | nil => simp [accumulateDigits, Nat.ofDigitChars_nil, Nat.not_lt.2 h]
  | cons c rest ih =>
    by_cases hc : c.isDigit = true
    · have hval : Nat.ofDigitChars 10 (c :: rest.takeWhile Char.isDigit) acc =
          Nat.ofDigitChars 10 (rest.takeWhile Char.isDigit) (acc * 10 + (c.toNat - 48)) := by
        rw [Nat.ofDigitChars_cons, Nat.mul_comm]
        rfl
      rw [List.takeWhile_cons_of_pos hc, hval]
      simp only [accumulateDigits, hc, if_true]
      by_cases hv : acc * 10 + (c.toNat - 48) > max
      · rw [if_pos hv, if_pos (Nat.lt_of_lt_of_le hv (le_ofDigitChars _ _))]
      · rw [if_neg hv, ih (Nat.le_of_not_lt hv)]
        simp
    · simp [accumulateDigits, hc, Nat.ofDigitChars_nil, Nat.not_lt.2 h]

theorem termBody_cons_of_ne {c : Char} (hc : c ≠ '+') (rest : List Char) :
    termBody (c :: rest) = c :: rest := by
  simp [termBody, hc]

/-- **Reading a term computes `readTerm`**, whose body is what follows an optional `+`. -/
theorem parseUnsigned_eq_readTerm (max : Nat) (s : List Char) :
    parseUnsigned max s = readTerm max s := by
  cases s with
  | nil => simp [parseUnsigned, readTerm]
  | cons c rest =>
    by_cases hplus : c = '+'
    · subst hplus
      cases rest with
      | nil => simp [parseUnsigned, readTerm, termBody, leadingValue, leadingDigits]
      | cons d rest =>
        simp only [parseUnsigned]
        rw [accumulateDigits_eq (Nat.zero_le _)]
        simp [readTerm, termBody, leadingValue, leadingDigits]
    · have hscan : parseUnsigned max (c :: rest) = if c = '-' ∧ rest = [] then .error .invalidDigit
          else accumulateDigits max 0 (c :: rest) := by
        unfold parseUnsigned
        split <;> simp_all
      rw [hscan, accumulateDigits_eq (Nat.zero_le _)]
      simp only [readTerm, termBody_cons_of_ne hplus, leadingValue, leadingDigits]
      split
      next hminus =>
        obtain ⟨rfl, rfl⟩ := hminus
        simp
      next => simp

theorem termBody_cases (s : List Char) : s = termBody s ∨ s = '+' :: termBody s := by
  cases s with
  | nil => exact .inl rfl
  | cons c rest =>
    by_cases hc : c = '+'
    · subst hc
      exact .inr rfl
    · exact .inl (termBody_cons_of_ne hc rest).symm

/-- Digits are their own body: a digit is no `+`. -/
theorem termBody_of_digits {ds : List Char} (h : ∀ c ∈ ds, c.isDigit = true) :
    termBody ds = ds := by
  cases ds with
  | nil => rfl
  | cons c rest =>
    have hc : c ≠ '+' := by
      rintro rfl
      exact absurd (h '+' List.mem_cons_self) (by decide)
    exact termBody_cons_of_ne hc rest

/-- **The terms that are read**: an optional `+` and one or more digits worth at most `max`. -/
theorem readTerm_eq_ok_iff {max v : Nat} {s : List Char} :
    readTerm max s = .ok v ↔ IsTerm max v s := by
  constructor
  · intro h
    unfold readTerm at h
    split at h
    · cases h
    split at h
    · cases h
    next hne hle =>
      split at h
      next hbody =>
        cases h
        refine ⟨termBody s, termBody_cases s, hbody.1, List.takeWhile_eq_self_iff.1 hbody.2, ?_,
          Nat.le_of_not_lt hle⟩
        rw [leadingValue, hbody.2]
      · cases h
  · rintro ⟨ds, hs, hne, hdig, rfl, hv⟩
    have hbody : termBody s = ds := by
      rcases hs with rfl | rfl
      · exact termBody_of_digits hdig
      · rfl
    have hlead : leadingDigits s = ds := by
      rw [leadingDigits, hbody]
      exact List.takeWhile_eq_self_iff.2 hdig
    have hs' : s ≠ [] := by
      rcases hs with rfl | rfl
      · exact hne
      · exact List.cons_ne_nil _ _
    have hval : leadingValue s = Nat.ofDigitChars 10 ds 0 := by rw [leadingValue, hlead]
    rw [readTerm, if_neg hs', hval, if_neg (Nat.not_lt.2 hv),
      if_pos ⟨hbody ▸ hne, hlead.trans hbody.symm⟩]

/-! ## Splitting a rate -/

namespace FrameRate

theorem splitTerms_of_slash {pre post : List Char} (hpre : '/' ∉ pre) :
    splitTerms (pre ++ '/' :: post) = (trimWhiteSpace pre, trimWhiteSpace post) := by
  have hkeep : ∀ c ∈ pre, decide (c ≠ '/') = true := fun c hc => by
    simpa using fun h : c = '/' => hpre (h ▸ hc)
  rw [splitTerms, List.span_eq_takeWhile_dropWhile, List.takeWhile_append_of_pos hkeep,
    List.dropWhile_append_of_pos hkeep]
  simp

theorem splitTerms_of_no_slash {s : List Char} (hs : '/' ∉ s) :
    splitTerms s = (trimWhiteSpace s, ['1']) := by
  have hkeep : ∀ c ∈ s, decide (c ≠ '/') = true := fun c hc => by
    simpa using fun h : c = '/' => hs (h ▸ hc)
  rw [splitTerms, List.span_eq_takeWhile_dropWhile, List.takeWhile_eq_self_iff.2 hkeep,
    List.dropWhile_eq_nil_iff.2 hkeep]

/-- A rate text is split at its first `/`, or has none. -/
theorem splitTerms_cases (s : List Char) :
    (∃ pre post, s = pre ++ '/' :: post ∧ '/' ∉ pre ∧
      splitTerms s = (trimWhiteSpace pre, trimWhiteSpace post)) ∨
    ('/' ∉ s ∧ splitTerms s = (trimWhiteSpace s, ['1'])) := by
  induction s with
  | nil => exact .inr ⟨List.not_mem_nil, splitTerms_of_no_slash List.not_mem_nil⟩
  | cons c rest ih =>
    by_cases hc : c = '/'
    · subst hc
      exact .inl ⟨[], rest, rfl, List.not_mem_nil, splitTerms_of_slash List.not_mem_nil⟩
    · rcases ih with ⟨pre, post, rfl, hpre, -⟩ | ⟨hrest, -⟩
      · have hpre' : '/' ∉ c :: pre := by simp [hpre, Ne.symm hc]
        exact .inl ⟨c :: pre, post, rfl, hpre', splitTerms_of_slash hpre'⟩
      · have hs : '/' ∉ c :: rest := by simp [hrest, Ne.symm hc]
        exact .inr ⟨hs, splitTerms_of_no_slash hs⟩

theorem make_eq_ok_iff {num den : Nat} {r : FrameRate} :
    make num den = .ok r ↔ r.num = num ∧ r.den = den := by
  unfold make
  split
  next hd =>
    refine ⟨fun h => (by cases h), ?_⟩
    rintro ⟨-, rfl⟩
    exact absurd r.den_pos (by omega)
  next hd =>
    split
    next hn =>
      refine ⟨fun h => (by cases h), ?_⟩
      rintro ⟨rfl, -⟩
      exact absurd r.num_pos (by omega)
    next hn =>
      constructor
      · intro h
        cases h
        exact ⟨rfl, rfl⟩
      · rintro ⟨rfl, rfl⟩
        rfl

/-! ## The outcome of reading a rate -/

section Parse

variable {s : String}

/-- Reading a rate reads the numerator, then the denominator, and then checks the terms; a
term's failure is reported with the side and the text it was read from. -/
theorem parse_eq_bind (s : String) :
    parse s = (do
      let num ← (readTerm maxU32 (splitTerms s.toList).1).mapError
        (.badRateTerm true (String.ofList (splitTerms s.toList).1))
      let den ← (readTerm maxU32 (splitTerms s.toList).2).mapError
        (.badRateTerm false (String.ofList (splitTerms s.toList).2))
      make num den) := by
  rw [← parseUnsigned_eq_readTerm, ← parseUnsigned_eq_readTerm]
  unfold parse
  obtain ⟨n, d⟩ := splitTerms s.toList
  dsimp only
  cases parseUnsigned maxU32 n <;> cases parseUnsigned maxU32 d <;> rfl

theorem parse_of_numerator_error {e : IntegerError}
    (h : readTerm maxU32 (splitTerms s.toList).1 = .error e) :
    parse s = .error (.badRateTerm true (String.ofList (splitTerms s.toList).1) e) := by
  rw [parse_eq_bind, h]
  rfl

theorem parse_of_denominator_error {num : Nat} {e : IntegerError}
    (hn : readTerm maxU32 (splitTerms s.toList).1 = .ok num)
    (hd : readTerm maxU32 (splitTerms s.toList).2 = .error e) :
    parse s = .error (.badRateTerm false (String.ofList (splitTerms s.toList).2) e) := by
  rw [parse_eq_bind, hn, hd]
  rfl

theorem parse_of_terms {num den : Nat}
    (hn : readTerm maxU32 (splitTerms s.toList).1 = .ok num)
    (hd : readTerm maxU32 (splitTerms s.toList).2 = .ok den) :
    parse s = make num den := by
  rw [parse_eq_bind, hn, hd]
  rfl

/-- The rate is read exactly when both terms are, and it is their quotient; a failing term makes
the reading fail. -/
theorem parse_eq_ok_iff {r : FrameRate} :
    parse s = .ok r ↔
      readTerm maxU32 (splitTerms s.toList).1 = .ok r.num ∧
        readTerm maxU32 (splitTerms s.toList).2 = .ok r.den := by
  constructor
  · intro h
    cases hn : readTerm maxU32 (splitTerms s.toList).1 with
    | error e => rw [parse_of_numerator_error hn] at h; cases h
    | ok num =>
      cases hd : readTerm maxU32 (splitTerms s.toList).2 with
      | error e => rw [parse_of_denominator_error hn hd] at h; cases h
      | ok den =>
        obtain ⟨rfl, rfl⟩ := make_eq_ok_iff.1 ((parse_of_terms hn hd).symm.trans h)
        exact ⟨rfl, rfl⟩
  · rintro ⟨hn, hd⟩
    rw [parse_of_terms hn hd]
    exact make_eq_ok_iff.2 ⟨rfl, rfl⟩

theorem make_zero_den (num : Nat) : make num 0 = .error .zeroDenominator := by
  unfold make
  rw [dif_pos rfl]

theorem make_zero_num {den : Nat} (hd : 0 < den) : make 0 den = .error .zeroNumerator := by
  unfold make
  rw [dif_neg (Nat.pos_iff_ne_zero.1 hd), dif_pos rfl]

end Parse

/-! ## Rates written in decimal -/

theorem isWhiteSpace_of_isDigit {c : Char} (h : c.isDigit = true) : isWhiteSpace c = false := by
  have hc := Char.isDigit_iff_toNat.1 h
  simp only [Char.reduceToNat] at hc
  simp only [isWhiteSpace]
  grind

theorem dropWhile_isWhiteSpace_of_digits {ds : List Char} (h : ∀ c ∈ ds, c.isDigit = true) :
    ds.dropWhile isWhiteSpace = ds := by
  cases ds with
  | nil => rfl
  | cons c rest => simp [isWhiteSpace_of_isDigit (h c List.mem_cons_self)]

/-- Digits have no white space to trim. -/
theorem trimWhiteSpace_of_digits {ds : List Char} (h : ∀ c ∈ ds, c.isDigit = true) :
    trimWhiteSpace ds = ds := by
  have hrev : ∀ c ∈ ds.reverse, c.isDigit = true := fun c hc => h c (List.mem_reverse.1 hc)
  rw [trimWhiteSpace, dropWhile_isWhiteSpace_of_digits h, dropWhile_isWhiteSpace_of_digits hrev,
    List.reverse_reverse]

/-- The decimal digits of a number at most `max` are read as that number. -/
theorem readTerm_toDigits {max n : Nat} (h : n ≤ max) : readTerm max (Nat.toDigits 10 n) = .ok n :=
  readTerm_eq_ok_iff.2 ⟨_, .inl rfl, Nat.toDigits_ne_nil,
    fun _ hc => Nat.isDigit_of_mem_toDigits (by decide) (by decide) hc,
    Nat.ofDigitChars_ten_toDigits, h⟩

/-- **A rate written `num/den` in decimal reads back**, for positive 32-bit terms. -/
theorem parse_toString {num den : Nat} (hn : 0 < num) (hn' : num ≤ maxU32) (hd : 0 < den)
    (hd' : den ≤ maxU32) :
    ∃ r, parse (toString num ++ "/" ++ toString den) = .ok r ∧ r.num = num ∧ r.den = den := by
  have hdigits : ∀ n : Nat, ∀ c ∈ Nat.toDigits 10 n, c.isDigit = true :=
    fun _ _ hc => Nat.isDigit_of_mem_toDigits (by decide) (by decide) hc
  have hslash : '/' ∉ Nat.toDigits 10 num := fun h => absurd (hdigits num '/' h) (by decide)
  have htext : (toString num ++ "/" ++ toString den).toList =
      Nat.toDigits 10 num ++ '/' :: Nat.toDigits 10 den := by
    simp [String.toList_append, Nat.toString_eq_repr, Nat.toList_repr]
  have hsplit : splitTerms (toString num ++ "/" ++ toString den).toList =
      (Nat.toDigits 10 num, Nat.toDigits 10 den) := by
    rw [htext, splitTerms_of_slash hslash, trimWhiteSpace_of_digits (hdigits num),
      trimWhiteSpace_of_digits (hdigits den)]
  rw [parse_of_terms (by rw [hsplit]; exact readTerm_toDigits hn')
    (by rw [hsplit]; exact readTerm_toDigits hd')]
  exact ⟨⟨num, den, hn, hd⟩, make_eq_ok_iff.2 ⟨rfl, rfl⟩, rfl, rfl⟩

/-- **Reading a frame rate.** The text is split at its first `/` into the sides `n` and `d`
(without a `/` the denominator is `1`), both trimmed of white space. The rate `num/den` is read
exactly when each side is an optional `+` and one or more digits worth at most `2³² - 1`, and
both values are positive.
Otherwise the reading is refused as an invalid state, with the text of the first failure: the
numerator's reading error, else the denominator's, else a zero denominator, else a zero
numerator. In particular every rate `num/den` with positive 32-bit terms, written in decimal,
reads back. -/
theorem parse_outcomes (s : String) :
    ∃ n d, splitTerms s.toList = (n, d) ∧
    ((∃ pre post, s.toList = pre ++ '/' :: post ∧ '/' ∉ pre ∧
        n = trimWhiteSpace pre ∧ d = trimWhiteSpace post) ∨
      ('/' ∉ s.toList ∧ n = trimWhiteSpace s.toList ∧ d = ['1'])) ∧
    (∀ num den, (∃ r, parse s = .ok r ∧ r.num = num ∧ r.den = den) ↔
      IsTerm maxU32 num n ∧ IsTerm maxU32 den d ∧ 0 < num ∧ 0 < den) ∧
    (∀ e, readTerm maxU32 n = .error e →
      ∃ err, parse s = .error err ∧ err.kind = .invalidState ∧
        err.detail = "bad fps numerator '" ++ String.ofList n ++ "': " ++ e.message) ∧
    (∀ num e, readTerm maxU32 n = .ok num → readTerm maxU32 d = .error e →
      ∃ err, parse s = .error err ∧ err.kind = .invalidState ∧
        err.detail = "bad fps denominator '" ++ String.ofList d ++ "': " ++ e.message) ∧
    (∀ num, readTerm maxU32 n = .ok num → readTerm maxU32 d = .ok 0 →
      ∃ err, parse s = .error err ∧ err.kind = .invalidState ∧
        err.detail = "Fps den must be > 0") ∧
    (∀ den, readTerm maxU32 n = .ok 0 → readTerm maxU32 d = .ok den → 0 < den →
      ∃ err, parse s = .error err ∧ err.kind = .invalidState ∧
        err.detail = "Fps num must be > 0") ∧
    (∀ num den, 0 < num → num ≤ maxU32 → 0 < den → den ≤ maxU32 →
      ∃ r, parse (toString num ++ "/" ++ toString den) = .ok r ∧ r.num = num ∧ r.den = den) := by
  refine ⟨(splitTerms s.toList).1, (splitTerms s.toList).2, rfl, ?split, fun num den => ?read,
    fun e hn => ?numerator, fun num e hn hd => ?denominator, fun num hn hd => ?denZero,
    fun den hn hd hden => ?numZero, fun num den hn hn' hd hd' => parse_toString hn hn' hd hd'⟩
  case split =>
    rcases splitTerms_cases s.toList with ⟨pre, post, hs, hpre, hsplit⟩ | ⟨hs, hsplit⟩
    · exact .inl ⟨pre, post, hs, hpre, by rw [hsplit], by rw [hsplit]⟩
    · exact .inr ⟨hs, by rw [hsplit], by rw [hsplit]⟩
  case read =>
    constructor
    · rintro ⟨r, hr, rfl, rfl⟩
      obtain ⟨hn, hd⟩ := parse_eq_ok_iff.1 hr
      exact ⟨readTerm_eq_ok_iff.1 hn, readTerm_eq_ok_iff.1 hd, r.num_pos, r.den_pos⟩
    · rintro ⟨hn, hd, hnum, hden⟩
      exact ⟨⟨num, den, hnum, hden⟩,
        parse_eq_ok_iff.2 ⟨readTerm_eq_ok_iff.2 hn, readTerm_eq_ok_iff.2 hd⟩, rfl, rfl⟩
  case numerator => exact ⟨_, parse_of_numerator_error hn, rfl, rfl⟩
  case denominator => exact ⟨_, parse_of_denominator_error hn hd, rfl, rfl⟩
  case denZero => exact ⟨_, (parse_of_terms hn hd).trans (make_zero_den num), rfl, rfl⟩
  case numZero => exact ⟨_, (parse_of_terms hn hd).trans (make_zero_num hden), rfl, rfl⟩

end FrameRate

end RegionTrack

import Mathlib
import RegionTrack.Proofs.ReaderSteps

/-!
# Reading numbers back

Two facts about the number reader, both about reading a number that stands inside a text.

*Integers.* The decimal digits of an integer of at most 64 bits are read back as that integer,
unsigned after no sign and negative after a minus (`reads_readNumber_digits`).

*Locality.* A number is read the same wherever it stands: whatever the reader makes of a
number's text alone, it makes of the same text followed by anything that does not go on with the
number (`EndsNumber`: the end of the text, or a byte that is no digit, point or exponent mark),
and it consumes the same bytes (`readNumber_extends`). The reader looks one byte past a number,
so this is a real condition; and it runs its loops on fuel drawn from the length of the rest of
the text, which differs between the two readings, so every loop is shown to need only what the
number itself takes.

Locality is what turns a statement about the text of one float, such as "the text of `x` reads
back as `x`", into one about every text in which that float is written.

## Main definitions

* `Reader.EndsNumber`: what may follow a number.
* `Reader.Extends`: a reader does on a text followed by more what it does on the text alone.

## Main statements

* `Reader.readNumber_extends`: locality of the number reader.
* `Reader.reads_readNumber_digits`: the digits of an integer read back as the integer.
-/

namespace RegionTrack.Json.Reader

/-! ## Failure -/

section Failure

variable {α : Type} {c c' : Cursor} {v : α}

theorem not_reads_fail (e : Malformed) : ¬ Reads (fail e : Reader α) c v c' := by
  intro h
  cases h

theorem not_reads_failPeek (e : Malformed) : ¬ Reads (failPeek e : Reader α) c v c' := by
  intro h
  cases h

end Failure

/-! ## What may follow a number -/

/-- A byte at which the number reader stops: no digit, point or exponent mark. -/
def StopsNumber (b : UInt8) : Prop := isDigit b = false ∧ b ≠ 46 ∧ b ≠ 101 ∧ b ≠ 69

/-- What may follow a number: the end of the text, or a byte the number reader stops at. -/
def EndsNumber (r : List UInt8) : Prop := StopsNumber (r.headD 0)

theorem stopsNumber_zero : StopsNumber 0 := by unfold StopsNumber; decide

theorem stopsNumber_comma : StopsNumber 44 := by unfold StopsNumber; decide

theorem stopsNumber_closeBracket : StopsNumber 93 := by unfold StopsNumber; decide

theorem stopsNumber_closeBrace : StopsNumber 125 := by unfold StopsNumber; decide

theorem StopsNumber.not_exponent {b : UInt8} (h : StopsNumber b) : (b = 101 || b = 69) = false := by
  simp only [Bool.or_eq_false_iff, decide_eq_false_iff_not]
  exact ⟨h.2.2.1, h.2.2.2⟩

/-- The byte looked at is in the text alone, which is therefore not empty. -/
theorem ne_nil_of_head? {a : Cursor} {b : UInt8} (h : a.rest.head? = some b) : a.rest ≠ [] := by
  intro hnil
  simp [hnil] at h

/-- A cursor `a` over a text alone, and a cursor `c` over the same text followed by `r`. -/
structure Along (r : List UInt8) (a c : Cursor) : Prop where
  alone : a.Plain
  within : c.Plain
  rest : c.rest = a.rest ++ r

theorem Along.advance {r : List UInt8} {a c : Cursor} (h : Along r a c) {k : Nat}
    (hk : k ≤ a.rest.length) : Along r (a.advance k) (c.advance k) :=
  ⟨h.alone.advance k, h.within.advance k, by simp [h.rest, List.drop_append_of_le_length hk]⟩

/-- From alone cursors satisfying `P`: whatever `x` reads alone, `x'` reads in the context of
`r`, consuming the same bytes. -/
def Extends {α : Type} (r : List UInt8) (P : Cursor → Prop) (x x' : Reader α) : Prop :=
  ∀ ⦃a c : Cursor⦄ ⦃v : α⦄ ⦃a' : Cursor⦄, Along r a c → P a → Reads x a v a' →
    ∃ k, k ≤ a.rest.length ∧ a' = a.advance k ∧ Reads x' c v (c.advance k)

namespace Extends

variable {α β : Type} {r : List UInt8} {P Q : Cursor → Prop} {x x' : Reader α}
  {g g' : α → Reader β}

theorem weaken (h : Extends r Q x x') (hPQ : ∀ a, P a → Q a) : Extends r P x x' :=
  fun _ _ _ _ hac ha hx => h hac (hPQ _ ha) hx

theorem pure (v : α) : Extends r P (Pure.pure v) (Pure.pure v) := by
  intro a c w a' _ _ hx
  obtain ⟨rfl, rfl⟩ := (Reads.pure v a).det hx
  exact ⟨0, Nat.zero_le _, rfl, Reads.pure v c⟩

/-- A reader that never succeeds alone extends to anything. -/
theorem of_fails (h : ∀ a, a.Plain → P a → ∀ v a', ¬ Reads x a v a') : Extends r P x x' :=
  fun a _ v a' hac ha hx => absurd hx (h a hac.alone ha v a')

theorem fail (e : Malformed) : Extends r P (Reader.fail e : Reader α) x' :=
  of_fails fun _ _ _ _ _ => not_reads_fail e

theorem failPeek (e : Malformed) : Extends r P (Reader.failPeek e : Reader α) x' :=
  of_fails fun _ _ _ _ _ => not_reads_failPeek e

/-- Extension through a `bind`, where what the first step leaves satisfies `Q`. -/
theorem bind (hx : Extends r P x x') (hg : ∀ w, Extends r Q (g w) (g' w))
    (hPQ : ∀ a w a', P a → Reads x a w a' → Q a') : Extends r P (x >>= g) (x' >>= g') := by
  intro a c v a'' hac ha hxg
  obtain ⟨w, a₁, hx₁, hg₁⟩ := hxg.bind_inv
  obtain ⟨k₁, hk₁, rfl, hx'⟩ := hx hac ha hx₁
  obtain ⟨k₂, hk₂, rfl, hg'⟩ := hg w (hac.advance hk₁) (hPQ a w _ ha hx₁) hg₁
  refine ⟨k₁ + k₂, ?_, by simp, hx'.bind (by simpa using hg')⟩
  simp only [Cursor.advance_rest, List.length_drop] at hk₂
  omega

/-- Both readings take the same branch of a test that does not look at the text. -/
theorem ite {y y' : Reader α} {q : Prop} [Decidable q] (hx : Extends r P x x')
    (hy : Extends r P y y') : Extends r P (if q then x else y) (if q then x' else y') := by
  by_cases h : q
  · simpa only [h, if_true] using hx
  · simpa only [h, if_false] using hy

theorem map (hx : Extends r P x x') (f : α → β) : Extends r P (f <$> x) (f <$> x') := by
  simp only [map_eq_pure_bind]
  exact hx.bind (Q := fun _ => True) (fun w => pure (f w)) (fun _ _ _ _ _ => trivial)

/-- The byte looked at is the same in both texts, unless the alone text has ended; then the
context shows the byte that follows the number. -/
theorem peekOrNull_bind {g g' : UInt8 → Reader β}
    (hnext : ∀ b, Extends r (fun a => P a ∧ a.rest.head? = some b) (g b) (g' b))
    (hend : Extends r (fun a => P a ∧ a.rest = []) (g 0) (g' (r.headD 0))) :
    Extends r P (peekOrNull >>= g) (peekOrNull >>= g') := by
  intro a c v a' hac ha hx
  obtain ⟨w, a₁, hpeek, hg⟩ := hx.bind_inv
  obtain ⟨rfl, rfl⟩ := (reads_peekOrNull hac.alone).det hpeek
  cases hrest : a.rest with
  | nil =>
    have hc : c.rest.headD 0 = r.headD 0 := by simp [hac.rest, hrest]
    have := hend hac ⟨ha, hrest⟩ (by simpa [hrest] using hg)
    rw [hrest] at this
    obtain ⟨k, hk, rfl, hg'⟩ := this
    exact ⟨k, hk, rfl, (reads_peekOrNull hac.within).bind (by rw [hc]; exact hg')⟩
  | cons b t =>
    have hc : c.rest.headD 0 = b := by simp [hac.rest, hrest]
    have := hnext b hac ⟨ha, by simp [hrest]⟩ (by simpa [hrest] using hg)
    rw [hrest] at this
    obtain ⟨k, hk, rfl, hg'⟩ := this
    exact ⟨k, hk, rfl, (reads_peekOrNull hac.within).bind (by rw [hc]; exact hg')⟩

/-- The fuel of the context is at least the fuel of the text alone, which exceeds its length. -/
theorem fuel_bind {g g' : Nat → Reader β}
    (hg : ∀ n n', n ≤ n' → Extends r (fun a => P a ∧ a.rest.length < n) (g n) (g' n')) :
    Extends r P (fuel >>= g) (fuel >>= g') := by
  intro a c v a' hac ha hx
  obtain ⟨w, a₁, hfuel, hg₁⟩ := hx.bind_inv
  obtain ⟨rfl, rfl⟩ := reads_fuel.det hfuel
  have hle : a.rest.length + 1 ≤ c.rest.length + 1 := by simp [hac.rest]
  obtain ⟨k, hk, rfl, hg'⟩ := hg _ _ hle hac ⟨ha, by omega⟩ hg₁
  exact ⟨k, hk, rfl, reads_fuel.bind hg'⟩

/-- A byte that the text alone still has is consumed in both. -/
theorem eat_bind {g g' : Unit → Reader β} (hg : Extends r Q (g ()) (g' ()))
    (hPQ : ∀ a, P a → a.rest ≠ [] → Q (a.advance 1)) :
    Extends r (fun a => P a ∧ a.rest ≠ []) (eat >>= g) (eat >>= g') := by
  intro a c v a' hac ⟨ha, hne⟩ hx
  obtain ⟨b, t, hrest⟩ := List.exists_cons_of_ne_nil hne
  have heat := reads_eat hac.alone hrest
  have heat' := reads_eat hac.within (by rw [hac.rest, hrest, List.cons_append])
  obtain ⟨w, a₁, he, hg₁⟩ := hx.bind_inv
  obtain ⟨rfl, rfl⟩ := heat.det he
  have hk1 : 1 ≤ a.rest.length := by simp [hrest]
  obtain ⟨k, hk, rfl, hg'⟩ := hg (hac.advance hk1) (hPQ a ha hne) hg₁
  refine ⟨1 + k, ?_, by simp, heat'.bind (by simpa using hg')⟩
  simp only [Cursor.advance_rest, List.length_drop] at hk
  omega

/-- `next` at the end of the alone text gives `none`, which the continuation refuses. -/
theorem next_bind {g g' : Option UInt8 → Reader β}
    (hsome : ∀ b, Extends r Q (g (some b)) (g' (some b))) (hPQ : ∀ a, P a → Q (a.advance 1))
    (hnone : ∀ a v a', ¬ Reads (g none) a v a') :
    Extends r P (next >>= g) (next >>= g') := by
  intro a c v a' hac ha hx
  obtain ⟨w, a₁, hn, hg₁⟩ := hx.bind_inv
  cases hrest : a.rest with
  | nil =>
    obtain ⟨rfl, rfl⟩ := (reads_next_end hac.alone hrest).det hn
    exact absurd hg₁ (hnone _ _ _)
  | cons b t =>
    have hnext' := reads_next hac.within (by rw [hac.rest, hrest, List.cons_append])
    obtain ⟨rfl, rfl⟩ := (reads_next hac.alone hrest).det hn
    have hk1 : 1 ≤ a.rest.length := by simp [hrest]
    obtain ⟨k, hk, rfl, hg'⟩ := hsome b (hac.advance hk1) (hPQ a ha) hg₁
    refine ⟨1 + k, ?_, by simp, hnext'.bind (by simpa using hg')⟩
    simp only [Cursor.advance_rest, List.length_drop, hrest, List.length_cons] at hk ⊢
    omega

/-- A byte that was looked at is in the text alone, so it can be consumed. -/
theorem eat_bind_of_head {b : UInt8} {g g' : Unit → Reader β}
    (hg : Extends r (fun _ => True) (g ()) (g' ())) :
    Extends r (fun a => P a ∧ a.rest.head? = some b) (eat >>= g) (eat >>= g') :=
  (eat_bind hg (P := P) fun _ _ _ => trivial).weaken fun _ h =>
    ⟨h.1, fun hnil => by simp [hnil] at h⟩

end Extends

theorem not_reads_bind {α β : Type} {x : Reader α} {g : α → Reader β}
    (h : ∀ w c c' v, ¬ Reads (g w) c v c') {c c' : Cursor} {v : β} : ¬ Reads (x >>= g) c v c' := by
  intro hx
  obtain ⟨w, c₁, -, hg⟩ := hx.bind_inv
  exact h w c₁ c' v hg

/-! ## Locality, one reader at a time

Each reader of a number is shown to extend from its text alone to its text followed by what
ends a number, from the innermost loop out. The fuel of a loop is only required to be at least
that of the reading alone; `skipDigits`, which stops without failing when its fuel runs out, also
needs the fuel to exceed the length of the text alone. -/

section Locality

variable {r : List UInt8} {P : Cursor → Prop}

theorem floatOfParts_extends (p : Bool) (s : Nat) (e : Int) :
    Extends r P (floatOfParts p s e) (floatOfParts p s e) := by
  unfold floatOfParts
  split
  · exact Extends.pure _
  · exact Extends.fail _

variable (hr : EndsNumber r)
include hr

theorem skipDigits_extends {f f' : Nat} (hf : f ≤ f') :
    Extends r (fun a => a.rest.length < f) (skipDigits f) (skipDigits f') := by
  induction f generalizing f' with
  | zero => exact Extends.of_fails fun a _ ha => absurd ha (Nat.not_lt_zero _)
  | succ f ih =>
    obtain ⟨f', rfl⟩ : ∃ f'', f' = f'' + 1 := ⟨f' - 1, by omega⟩
    rw [skipDigits, skipDigits]
    apply Extends.peekOrNull_bind
    · intro b
      by_cases hb : isDigit b
      · simp only [hb, if_true]
        refine (Extends.eat_bind (P := fun a => a.rest.length < f + 1) (Q := fun a => a.rest.length < f)
          (@ih f' (by omega)) ?_).weaken ?_
        · intro a (ha : a.rest.length < f + 1) hne
          have : a.rest.length ≠ 0 := by simpa using hne
          simp only [Cursor.advance_rest, List.length_drop]
          omega
        · intro a ⟨ha, hb⟩
          exact ⟨ha, fun hnil => by simp [hnil] at hb⟩
      · simp only [hb, Bool.false_eq_true, if_false]
        exact Extends.pure ()
    · have h0 : isDigit 0 = false := by decide
      simp only [h0, hr.1, Bool.false_eq_true, if_false]
      exact Extends.pure ()

theorem exponentOverflow_extends (p z pe : Bool) :
    Extends r P (exponentOverflow p z pe) (exponentOverflow p z pe) := by
  unfold exponentOverflow
  split
  · exact Extends.fail _
  · apply Extends.fuel_bind
    intro n n' hn
    exact Extends.bind (Q := fun _ => True) ((skipDigits_extends hr hn).weaken fun _ h => h.2)
      (fun _ => Extends.pure _) fun _ _ _ _ _ => trivial

theorem exponentDigits_extends (p : Bool) (s : Nat) (st : Int) (pe : Bool) {f f' : Nat}
    (hf : f ≤ f') (e : Nat) :
    Extends r P (exponentDigits p s st pe e f) (exponentDigits p s st pe e f') := by
  induction f generalizing f' e P with
  | zero => exact Extends.fail _
  | succ f ih =>
    obtain ⟨f', rfl⟩ : ∃ f'', f' = f'' + 1 := ⟨f' - 1, by omega⟩
    rw [exponentDigits, exponentDigits]
    apply Extends.peekOrNull_bind
    · intro b
      by_cases hb : isDigit b
      · simp only [hb, if_true]
        refine Extends.eat_bind_of_head ?_
        split
        · exact exponentOverflow_extends hr _ _ _
        · exact ih (show f ≤ f' by omega) _
      · simp only [hb, Bool.false_eq_true, if_false]
        exact floatOfParts_extends _ _ _
    · have h0 : isDigit 0 = false := by decide
      simp only [h0, hr.1, Bool.false_eq_true, if_false]
      exact floatOfParts_extends _ _ _

/-- An exponent part is read from its mark, which the text alone has: at the end of the text
alone the exponent has no digit, and the reading fails. -/
theorem readExponent_extends (p : Bool) (s : Nat) (st : Int) :
    Extends r (fun a => a.rest ≠ []) (readExponent p s st) (readExponent p s st) := by
  unfold readExponent
  refine (Extends.eat_bind (P := fun _ => True) (Q := fun _ => True) ?_
    fun _ _ _ => trivial).weaken fun _ h => ⟨trivial, h⟩
  have hdigits : ∀ pe (g : Option UInt8 → Reader Float),
      (∀ d, g (some d) = if isDigit d = true then
        fuel >>= fun n => exponentDigits p s st pe (digitValue d) n else fail .invalidNumber) →
      g none = fail .eofInValue → Extends r (fun _ => True) (next >>= g) (next >>= g) := by
    intro pe g hsome hnone
    refine Extends.next_bind (Q := fun _ => True) ?_ (fun _ _ => trivial) ?_
    · intro d
      rw [hsome d]
      by_cases hd : isDigit d
      · simp only [hd, if_true]
        exact Extends.fuel_bind fun n n' hn => exponentDigits_extends hr _ _ _ _ hn _
      · simp only [hd, Bool.false_eq_true, if_false]
        exact Extends.fail _
    · intro a v a' h
      rw [hnone] at h
      exact not_reads_fail _ h
  apply Extends.peekOrNull_bind
  · intro b
    dsimp only
    by_cases h43 : b = 43
    · simp only [h43, if_true]
      exact Extends.eat_bind_of_head (by
        simp only [pure_bind]; exact hdigits true _ (fun _ => rfl) rfl)
    by_cases h45 : b = 45
    · simp only [h45, if_true]
      exact Extends.eat_bind_of_head (by
        simp only [pure_bind]; exact hdigits false _ (fun _ => rfl) rfl)
    simp only [h43, h45, if_false, pure_bind]
    exact (hdigits true _ (fun _ => rfl) rfl).weaken fun _ _ => trivial
  · refine Extends.of_fails fun a hplain hend v a' h => ?_
    have hnil := hend.2
    have h0 : ¬ (0 : UInt8) = 43 ∧ ¬ (0 : UInt8) = 45 := by decide
    simp only [h0, if_false, pure_bind] at h
    obtain ⟨o, a₂, hn, hg⟩ := h.bind_inv
    obtain ⟨rfl, rfl⟩ := (reads_next_end hplain hnil).det hn
    exact not_reads_fail _ hg

theorem fractionOverflow_extends (p : Bool) (s : Nat) (e : Int) :
    Extends r P (fractionOverflow p s e) (fractionOverflow p s e) := by
  unfold fractionOverflow
  apply Extends.fuel_bind
  intro n n' hn
  refine Extends.bind (Q := fun _ => True) ((skipDigits_extends hr hn).weaken fun _ h => h.2) ?_
    fun _ _ _ _ _ => trivial
  intro _
  apply Extends.peekOrNull_bind
  · intro b
    split
    · exact (readExponent_extends hr _ _ _).weaken fun _ h => ne_nil_of_head? h.2
    · exact floatOfParts_extends _ _ _
  · simp only [stopsNumber_zero.not_exponent, StopsNumber.not_exponent hr, Bool.false_eq_true,
      if_false]
    exact floatOfParts_extends _ _ _

theorem fractionDigits_extends (p : Bool) (st : Int) {f f' : Nat} (hf : f ≤ f') (s places : Nat) :
    Extends r P (fractionDigits p s st places f) (fractionDigits p s st places f') := by
  induction f generalizing f' s places P with
  | zero => exact Extends.fail _
  | succ f ih =>
    obtain ⟨f', rfl⟩ : ∃ f'', f' = f'' + 1 := ⟨f' - 1, by omega⟩
    rw [fractionDigits, fractionDigits]
    have hnone : ∀ g : Option UInt8 → Reader Float, (∀ o, ∃ e, g o = failPeek e) →
        ∀ a v a', ¬ Reads (peek >>= g) a v a' := by
      intro g hg a v a'
      refine not_reads_bind fun o _ _ _ => ?_
      obtain ⟨e, he⟩ := hg o
      rw [he]
      exact not_reads_failPeek _
    apply Extends.peekOrNull_bind
    · intro b
      by_cases hb : isDigit b
      · simp only [hb, if_true]
        split
        · exact fractionOverflow_extends hr _ _ _
        · exact Extends.eat_bind_of_head (ih (show f ≤ f' by omega) _ _)
      · simp only [hb, Bool.false_eq_true, if_false]
        split
        · exact Extends.of_fails fun a _ _ v a' =>
            hnone _ (fun o => by cases o <;> exact ⟨_, rfl⟩) a v a'
        · split
          · exact (readExponent_extends hr _ _ _).weaken fun _ h => ne_nil_of_head? h.2
          · exact floatOfParts_extends _ _ _
    · simp only [stopsNumber_zero.1, hr.1, stopsNumber_zero.not_exponent,
        StopsNumber.not_exponent hr, Bool.false_eq_true, if_false]
      split
      · exact Extends.of_fails fun a _ _ v a' =>
          hnone _ (fun o => by cases o <;> exact ⟨_, rfl⟩) a v a'
      · exact floatOfParts_extends _ _ _

/-- A fraction part is read from its point, which the text alone has. -/
theorem readFraction_extends (p : Bool) (s : Nat) (st : Int) :
    Extends r (fun a => a.rest ≠ []) (readFraction p s st) (readFraction p s st) := by
  unfold readFraction
  refine (Extends.eat_bind (P := fun _ => True) (Q := fun _ => True) ?_
    fun _ _ _ => trivial).weaken fun _ h => ⟨trivial, h⟩
  exact Extends.fuel_bind fun n n' hn => fractionDigits_extends hr _ _ hn _ _

theorem longDigits_extends (p : Bool) (s : Nat) {f f' : Nat} (hf : f ≤ f') (e : Int) :
    Extends r P (longDigits p s e f) (longDigits p s e f') := by
  induction f generalizing f' e P with
  | zero => exact Extends.fail _
  | succ f ih =>
    obtain ⟨f', rfl⟩ : ∃ f'', f' = f'' + 1 := ⟨f' - 1, by omega⟩
    rw [longDigits, longDigits]
    apply Extends.peekOrNull_bind
    · intro b
      by_cases hb : isDigit b
      · simp only [hb, if_true]
        exact Extends.eat_bind_of_head (ih (show f ≤ f' by omega) _)
      · simp only [hb, Bool.false_eq_true, if_false]
        split
        · exact (readFraction_extends hr _ _ _).weaken fun _ h => ne_nil_of_head? h.2
        · split
          · exact (readExponent_extends hr _ _ _).weaken fun _ h => ne_nil_of_head? h.2
          · exact floatOfParts_extends _ _ _
    · simp only [stopsNumber_zero.1, stopsNumber_zero.2.1, stopsNumber_zero.not_exponent, hr.1,
        hr.2.1, StopsNumber.not_exponent hr, Bool.false_eq_true, if_false]
      exact floatOfParts_extends _ _ _

theorem numberTail_extends (p : Bool) (s : Nat) :
    Extends r P (numberTail p s) (numberTail p s) := by
  unfold numberTail
  apply Extends.peekOrNull_bind
  · intro b
    split
    · exact ((readFraction_extends hr _ _ _).weaken fun _ h => ne_nil_of_head? h.2).map _
    · split
      · exact ((readExponent_extends hr _ _ _).weaken fun _ h => ne_nil_of_head? h.2).map _
      · exact .ite (.pure _) (.ite (.pure _) (.pure _))
  · simp only [stopsNumber_zero.2.1, stopsNumber_zero.not_exponent, hr.2.1,
      StopsNumber.not_exponent hr, Bool.false_eq_true, if_false]
    exact .ite (.pure _) (.ite (.pure _) (.pure _))

theorem integerDigits_extends (p : Bool) {f f' : Nat} (hf : f ≤ f') (s : Nat) :
    Extends r P (integerDigits p s f) (integerDigits p s f') := by
  induction f generalizing f' s P with
  | zero => exact Extends.fail _
  | succ f ih =>
    obtain ⟨f', rfl⟩ : ∃ f'', f' = f'' + 1 := ⟨f' - 1, by omega⟩
    rw [integerDigits, integerDigits]
    apply Extends.peekOrNull_bind
    · intro b
      by_cases hb : isDigit b
      · simp only [hb, if_true]
        split
        · exact Extends.fuel_bind fun n n' hn =>
            Extends.bind (Q := fun _ => True) (longDigits_extends hr _ _ hn _)
              (fun _ => Extends.pure _) fun _ _ _ _ _ => trivial
        · exact Extends.eat_bind_of_head (ih (show f ≤ f' by omega) _)
      · simp only [hb, Bool.false_eq_true, if_false]
        exact numberTail_extends hr _ _
    · simp only [stopsNumber_zero.1, hr.1, Bool.false_eq_true, if_false]
      exact numberTail_extends hr _ _

/-- **Locality of the number reader.** Whatever the reader makes of a number's text alone, it
makes of the same text followed by what ends a number, consuming the same bytes. -/
theorem readNumber_extends (p : Bool) : Extends r P (readNumber p) (readNumber p) := by
  unfold readNumber
  refine Extends.next_bind (Q := fun _ => True) ?_ (fun _ _ => trivial) ?_
  · intro b
    dsimp only
    split
    · apply Extends.peekOrNull_bind
      · exact fun _ => .ite (.failPeek _) (numberTail_extends hr _ _)
      · simp only [stopsNumber_zero.1, hr.1, Bool.false_eq_true, if_false]
        exact numberTail_extends hr _ _
    · exact .ite (Extends.fuel_bind fun n n' hn => integerDigits_extends hr _ hn _) (.fail _)
  · intro a v a' h
    exact not_reads_fail _ h

end Locality

/-! ## Integers

The digits of an integer are one byte each. `integerDigits` accumulates them as
`Nat.ofDigitChars` does, and never finds the significand full while the whole integer fits in 64
bits, since every prefix of the digits is worth at most the whole. -/

section Integers

variable {c c' : Cursor} {r : List UInt8}

/-- A decimal digit character is the single byte of its code, which `isDigit` accepts and whose
`digitValue` is the digit. -/
theorem digit_byte {ch : Char} (h : ch.isDigit = true) :
    String.utf8EncodeChar ch = [UInt8.ofNat ch.toNat] ∧ isDigit (UInt8.ofNat ch.toNat) = true ∧
      digitValue (UInt8.ofNat ch.toNat) = ch.toNat - 48 ∧ (UInt8.ofNat ch.toNat = 48 ↔ ch = '0') := by
  have hval : 48 ≤ ch.toNat ∧ ch.toNat ≤ 57 := Char.isDigit_iff_toNat.1 h
  obtain ⟨d, hd, hch⟩ : ∃ d, d < 10 ∧ ch.toNat = 48 + d := ⟨ch.toNat - 48, by omega, by omega⟩
  have hbyte : ∀ d, d < 10 → isDigit (UInt8.ofNat (48 + d)) = true ∧
      digitValue (UInt8.ofNat (48 + d)) = d ∧ (UInt8.ofNat (48 + d) = 48 ↔ d = 0) := by decide
  have hzero : ch = '0' ↔ d = 0 := by
    rw [← Char.toNat_inj]
    simp only [hch, Char.reduceToNat]
    omega
  refine ⟨?_, ?_, ?_, ?_⟩
  · simp only [String.utf8EncodeChar, Char.toNat] at hch ⊢
    rw [if_pos (by omega)]
  · rw [hch]; exact (hbyte d hd).1
  · rw [hch, (hbyte d hd).2.1]; omega
  · rw [hch, hzero]; exact (hbyte d hd).2.2

/-- The leading digit of a positive integer is not `0`. -/
theorem toDigits_head_ne_zero {n : Nat} (hn : 0 < n) : (Nat.toDigits 10 n).head? ≠ some '0' := by
  induction n using Nat.strongRecOn with
  | ind n ih =>
    by_cases h10 : n < 10
    · rw [Nat.toDigits_of_lt_base h10]
      have : ∀ d, d < 10 → 0 < d → Nat.digitChar d ≠ '0' := by decide
      simpa using this n h10 hn
    · rw [Nat.toDigits_of_base_le (by decide) (by omega)]
      have hne := Nat.toDigits_ne_nil (n := n / 10) (b := 10)
      obtain ⟨d, ds, hds⟩ := List.exists_cons_of_ne_nil hne
      have := ih (n / 10) (by omega) (by omega)
      rw [hds] at this ⊢
      simpa using this

theorem reads_numberTail_unsigned (hc : c.Plain) (hr : StopsNumber (c.rest.headD 0)) (n : Nat) :
    Reads (numberTail true n) c (.unsigned n) c := by
  unfold numberTail
  refine (reads_peekOrNull hc).bind ?_
  simp only [hr.2.1, StopsNumber.not_exponent hr, Bool.false_eq_true, if_false, if_true]
  exact Reads.pure _ c

theorem reads_numberTail_negative (hc : c.Plain) (hr : StopsNumber (c.rest.headD 0)) {n : Nat}
    (h1 : 1 ≤ n) (h2 : n ≤ Nat.pow 2 63) :
    Reads (numberTail false n) c (.negative (-(n : Int))) c := by
  unfold numberTail
  refine (reads_peekOrNull hc).bind ?_
  simp only [hr.2.1, StopsNumber.not_exponent hr, Bool.false_eq_true, if_false, h1, h2, and_self,
    if_true]
  exact Reads.pure _ c

/-- The digits `cs` are accumulated onto `s`, never passing the whole integer; the reading then
goes on as `numberTail`. -/
theorem reads_integerDigits {p : Bool} (hc : c.Plain) {cs : List Char}
    (hcs : ∀ ch ∈ cs, ch.isDigit = true) {s : Nat} (hs : Nat.ofDigitChars 10 cs s ≤ maxUnsigned)
    (hrest : c.rest = cs.flatMap String.utf8EncodeChar ++ r) (hr : isDigit (r.headD 0) = false)
    {f : Nat} (hf : cs.length < f) {v : Number}
    (htail : Reads (numberTail p (Nat.ofDigitChars 10 cs s)) (c.advance cs.length) v c') :
    Reads (integerDigits p s f) c v c' := by
  obtain ⟨f, rfl⟩ : ∃ f', f = f' + 1 := ⟨f - 1, by omega⟩
  induction cs generalizing s f c with
  | nil =>
    simp only [List.flatMap_nil, List.nil_append] at hrest
    rw [integerDigits]
    refine (reads_peekOrNull hc).bind ?_
    simp only [hrest, hr, Bool.false_eq_true, if_false]
    simpa using htail
  | cons ch cs ih =>
    obtain ⟨hbytes, hdigit, hvalue, -⟩ := digit_byte (hcs ch (by simp))
    have hrest' : c.rest = UInt8.ofNat ch.toNat :: (cs.flatMap String.utf8EncodeChar ++ r) := by
      simp [hrest, hbytes]
    have hstep : s * 10 + digitValue (UInt8.ofNat ch.toNat) ≤ maxUnsigned := by
      rw [Nat.ofDigitChars_cons, Nat.ofDigitChars_eq_ofDigitChars_zero] at hs
      have : 10 * s + (ch.toNat - 48) ≤ 10 ^ cs.length * (10 * s + (ch.toNat - 48)) :=
        Nat.le_mul_of_pos_left _ (Nat.pow_pos (by decide))
      rw [hvalue]
      simp only [Char.reduceToNat] at hs
      omega
    rw [integerDigits]
    refine (reads_peekOrNull hc).bind ?_
    simp only [hrest', List.headD_cons, hdigit, if_true, gt_iff_lt, Nat.not_lt.2 hstep, if_false]
    refine (reads_eat hc hrest').bind ?_
    have hrest₁ : (c.advance 1).rest = cs.flatMap String.utf8EncodeChar ++ r := by simp [hrest']
    have hf' : cs.length < f := by simpa using hf
    obtain ⟨f, rfl⟩ : ∃ f', f = f' + 1 := ⟨f - 1, by omega⟩
    refine ih (hc.advance 1) (fun x hx => hcs x (by simp [hx])) ?_ hrest₁ ?_ f hf'
    · rw [Nat.ofDigitChars_cons] at hs
      rw [hvalue, Nat.mul_comm]
      simpa using hs
    · rw [Nat.ofDigitChars_cons] at htail
      rw [hvalue, Nat.mul_comm, Cursor.advance_advance]
      simpa [Nat.add_comm] using htail

/-- Digits are one byte each. -/
theorem length_flatMap_digits {cs : List Char} (h : ∀ ch ∈ cs, ch.isDigit = true) :
    (cs.flatMap String.utf8EncodeChar).length = cs.length := by
  induction cs with
  | nil => rfl
  | cons ch cs ih =>
    simp only [List.mem_cons, forall_eq_or_imp] at h
    simp [(digit_byte h.1).1, ih h.2]

/-- **Integers read back.** The digits of an integer below `2^64`, followed by what ends a
number, are read as `numberTail` reads that integer, and consumed. Only zero is written with a
leading `0`, and it has no further digit. -/
theorem reads_readNumber_digits (p : Bool) (hc : c.Plain) {n : Nat} (hn : n ≤ maxUnsigned)
    (hr : EndsNumber r) (hrest : c.rest = textBytes (toString n) ++ r) {v : Number}
    (htail : Reads (numberTail p n) (c.advance (textBytes (toString n)).length) v
      (c.advance (textBytes (toString n)).length)) :
    Reads (readNumber p) c v (c.advance (textBytes (toString n)).length) := by
  rw [Nat.toString_eq_ofList_toDigits, textBytes_ofList] at hrest htail ⊢
  have hdigits : ∀ ch ∈ Nat.toDigits 10 n, ch.isDigit = true :=
    fun _ h => Nat.isDigit_of_mem_toDigits (by decide) (by decide) h
  obtain ⟨ch, cs, hds⟩ := List.exists_cons_of_ne_nil (Nat.toDigits_ne_nil (n := n) (b := 10))
  rw [hds] at hrest htail hdigits ⊢
  obtain ⟨hbytes, hdigit, hvalue, hzero⟩ := digit_byte (hdigits ch (by simp))
  have hrest' : c.rest = UInt8.ofNat ch.toNat :: (cs.flatMap String.utf8EncodeChar ++ r) := by
    simp [hrest, hbytes]
  have hlen : ((ch :: cs).flatMap String.utf8EncodeChar).length =
      1 + (cs.flatMap String.utf8EncodeChar).length := by
    simp [hbytes, Nat.add_comm]
  rw [hlen] at htail ⊢
  unfold readNumber
  refine (reads_next hc hrest').bind ?_
  by_cases h0 : ch = '0'
  · have hn0 : n = 0 := by
      rcases Nat.eq_zero_or_pos n with h | hpos
      · exact h
      · exact absurd (by rw [hds, h0]; rfl) (toDigits_head_ne_zero hpos)
    subst hn0 h0
    have hcs : cs = [] := by simpa using hds
    subst hcs
    simp only [hzero.2 rfl, if_true]
    have hrest₁ : (c.advance 1).rest = r := by simp [hrest']
    refine (reads_peekOrNull (hc.advance 1)).bind ?_
    simp only [hrest₁, hr.1, Bool.false_eq_true, if_false]
    simpa using htail
  · simp only [show ¬ UInt8.ofNat ch.toNat = 48 from fun h => h0 (hzero.1 h), if_false, hdigit,
      if_true]
    refine reads_fuel.bind ?_
    have hrest₁ : (c.advance 1).rest = cs.flatMap String.utf8EncodeChar ++ r := by simp [hrest']
    have hval : Nat.ofDigitChars 10 cs (digitValue (UInt8.ofNat ch.toNat)) = n := by
      have := Nat.ofDigitChars_ten_toDigits (n := n)
      rw [hds, Nat.ofDigitChars_cons] at this
      simpa [hvalue] using this
    have hlen' := length_flatMap_digits fun x (hx : x ∈ cs) => hdigits x (by simp [hx])
    refine reads_integerDigits (hc.advance 1) (fun x hx => hdigits x (by simp [hx])) ?_ hrest₁ hr.1
      ?_ ?_
    · rw [hval]; exact hn
    · simp only [hrest₁, List.length_append, hlen']
      omega
    · rw [hval, Cursor.advance_advance, ← hlen']
      exact htail

end Integers

end RegionTrack.Json.Reader

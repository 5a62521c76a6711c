import RegionTrack.Proofs.FrameQuery
import RegionTrack.Proofs.TimeOrder

/-!
# Where a time falls among the samples

`Timeline.bracket` looks a time up in three ways: the entry on its key, the last entry at or
below its key and the first at or above it. This module shows that together they classify every
time exactly (`Timeline.bracket_eq_exact_iff`, `Timeline.bracket_eq_clamped_iff`,
`Timeline.bracket_eq_between_iff`): the bracket is `exact` on a stored key, `clamped` to the
first sample below every key and to the last above every key, and `between` two stored entries
exactly when they are the neighbours of the time's key, with no key strictly between them.

Every key a timeline stores through its edits is the key of a time, so never `-0.0`
(`Timeline.KeysOfTimes`); on such keys, and away from NaN, "below" and "above" in key order are
`<` on floats (`TimeKey.rank_lt_rankOf_iff`).

## Main results

* `Keyed.head?_eq_of_le_all`, `Keyed.getLast?_eq_of_le_all`: the least and greatest keys of an
  ordered list are at its ends
* `Timeline.bracket_eq_exact_iff`, `Timeline.bracket_eq_clamped_iff`,
  `Timeline.bracket_eq_between_iff`: the three non-empty brackets
* `Timeline.KeysOfTimes.edits`: edits store only keys of times
* `Timeline.bracket_classifies_times`: the bracket of every time on every timeline built by edits
-/

namespace RegionTrack

namespace Keyed

variable {α : Type} {key : α → Nat} {xs : List α} {x : α}

/-- In an ordered list, an element whose key is at most every key is the first element. -/
theorem head?_eq_of_le_all (hs : Sorted key xs) (hx : x ∈ xs) (hmin : ∀ y ∈ xs, key x ≤ key y) :
    xs.head? = some x := by
  cases xs with
  | nil => cases hx
  | cons y ys =>
    rcases List.mem_cons.1 hx with rfl | hx'
    · rfl
    · exact absurd (hmin y List.mem_cons_self) (Nat.not_le.2 (List.rel_of_pairwise_cons hs hx'))

/-- In an ordered list, an element whose key is at least every key is the last element. -/
theorem getLast?_eq_of_le_all (hs : Sorted key xs) (hx : x ∈ xs) (hmax : ∀ y ∈ xs, key y ≤ key x) :
    xs.getLast? = some x := by
  have hne : xs ≠ [] := List.ne_nil_of_mem hx
  obtain ⟨z, hz⟩ : ∃ z, xs.getLast? = some z := ⟨_, List.getLast?_eq_getLast_of_ne_nil hne⟩
  have hzx := key_le_of_getLast? hs hz hx
  rw [hz, eq_of_key_eq hs (List.mem_of_getLast? hz) hx
    (Nat.le_antisymm (hmax z (List.mem_of_getLast? hz)) hzx)]

end Keyed

namespace Timeline

variable (tl : Timeline) (t : Float)

/-- The rectangle under the key of `t` is stored with the key of `t` as its time: a stored time
with the rank of that key is that key. -/
theorem get?_eq_some_iff (b : Rect) :
    tl.get? t = some b ↔ ((TimeKey.ofTime t).secs, b) ∈ tl.toList := by
  constructor
  · intro h
    obtain ⟨e, he, rfl⟩ := Option.map_eq_some_iff.1 h
    obtain ⟨hmem, hkey⟩ := Keyed.find?_eq_some he
    have hsecs : e.1.secs = (TimeKey.ofTime t).secs := TimeKey.rank_eq_iff.1 hkey
    exact List.mem_map.2 ⟨e, hmem, by rw [← hsecs]⟩
  · intro h
    exact get?_eq_some_of_mem tl t h rfl

/-- A time with a rectangle on its key finds exactly that rectangle; without one, the two
neighbour searches never give `exact`. -/
theorem bracket_eq_exact_iff (b : Rect) :
    tl.bracket t = .exact b ↔ ((TimeKey.ofTime t).secs, b) ∈ tl.toList := by
  rw [← get?_eq_some_iff]
  constructor
  · intro h
    unfold bracket at h
    split at h
    next r hr => cases h; exact hr
    next => split at h <;> cases h
  · intro h
    rw [bracket, h]

/-- A time finds a clamped rectangle exactly when it is below every key and the rectangle is the
first one, or above every key and the rectangle is the last one. With nothing at or above the
key, the last entry at or below it is the last of all, and dually. -/
theorem bracket_eq_clamped_iff (r : Rect) :
    tl.bracket t = .clamped r ↔
      (∃ x, tl.toList.head? = some (x, r) ∧ ∀ e ∈ tl.toList, rankOf t < TimeKey.rank e.1) ∨
      (∃ x, tl.toList.getLast? = some (x, r) ∧ ∀ e ∈ tl.toList, TimeKey.rank e.1 < rankOf t) := by
  constructor
  · intro h
    unfold bracket at h
    split at h
    next => cases h
    next =>
      split at h
      next => cases h
      next x r' hb ha =>
        cases h
        rw [atOrAfter?, Keyed.find?_ge_eq_none_iff] at ha
        obtain ⟨hx, -, hmax⟩ := Keyed.lastLe_spec tl.toList_sorted hb
        refine .inr ⟨x, Keyed.getLast?_eq_of_le_all tl.toList_sorted hx fun e he => ?_, ha⟩
        exact hmax e he (Nat.le_of_lt (ha e he))
      next x r' hb ha =>
        cases h
        rw [atOrBefore?, Keyed.lastLe_eq_none_iff] at hb
        obtain ⟨hx, -, hmin⟩ := Keyed.find?_ge_spec tl.toList_sorted ha
        refine .inl ⟨x, Keyed.head?_eq_of_le_all tl.toList_sorted hx fun e he => ?_, hb⟩
        exact hmin e he (Nat.le_of_lt (hb e he))
      next => cases h
  · rintro (⟨x, hh, hlt⟩ | ⟨x, hl, hgt⟩)
    · have hmin := fun e (he : e ∈ tl.toList) => Keyed.key_le_of_head? tl.toList_sorted hh he
      exact bracket_of_lt_all tl t (List.mem_of_head? hh) hlt hmin
    · have hmax := fun e (he : e ∈ tl.toList) => Keyed.key_le_of_getLast? tl.toList_sorted hl he
      exact bracket_of_all_lt tl t (List.mem_of_getLast? hl) hgt hmax

/-- A time finds two rectangles exactly when they are stored on either side of its key with no
key strictly between theirs. No entry sits on the key, so both neighbours are strictly on their
side. -/
theorem bracket_eq_between_iff (t1 t2 : Float) (left right : Rect) :
    tl.bracket t = .between t1 left t2 right ↔
      (t1, left) ∈ tl.toList ∧ (t2, right) ∈ tl.toList ∧
      TimeKey.rank t1 < rankOf t ∧ rankOf t < TimeKey.rank t2 ∧
      ∀ e ∈ tl.toList, TimeKey.rank e.1 ≤ TimeKey.rank t1 ∨ TimeKey.rank t2 ≤ TimeKey.rank e.1 := by
  constructor
  · intro h
    unfold bracket at h
    split at h
    next => cases h
    next hg =>
      split at h
      next => cases h
      next => cases h
      next => cases h
      next hb ha =>
        cases h
        obtain ⟨h1, hle1, hmax⟩ := Keyed.lastLe_spec tl.toList_sorted hb
        obtain ⟨h2, hle2, hmin⟩ := Keyed.find?_ge_spec tl.toList_sorted ha
        have hne := (get?_eq_none_iff tl t).1 hg
        have hlt1 : TimeKey.rank t1 < rankOf t := Nat.lt_of_le_of_ne hle1 (hne _ h1)
        have hlt2 : rankOf t < TimeKey.rank t2 := Nat.lt_of_le_of_ne hle2 (Ne.symm (hne _ h2))
        refine ⟨h1, h2, hlt1, hlt2, fun e he => ?_⟩
        by_cases hle : TimeKey.rank e.1 ≤ rankOf t
        · exact .inl (hmax e he hle)
        · exact .inr (hmin e he (by omega))
  · rintro ⟨h1, h2, hlt1, hlt2, hgap⟩
    exact bracket_of_between tl t h1 h2 hlt1 hlt2 hgap

/-! ## Timelines built by edits -/

/-- Every stored key is the key of a time. -/
def KeysOfTimes (tl : Timeline) : Prop := ∀ e ∈ tl.entries, ∃ s, e.1 = TimeKey.ofTime s

theorem keysOfTimes_empty : Timeline.empty.KeysOfTimes := fun _ h => by cases h

/-- One edit stores only keys of times. -/
theorem KeysOfTimes.edit {tl : Timeline} (h : tl.KeysOfTimes) (e : Edit) : (tl.edit e).KeysOfTimes := by
  cases e with
  | insert s r =>
    intro x hx
    rcases Keyed.mem_insert hx with rfl | hx
    · exact ⟨s, rfl⟩
    · exact h x hx
  | remove s => exact fun x hx => h x ((Keyed.erase_sublist _ _).subset hx)
  | clear => exact keysOfTimes_empty

/-- A run of edits stores only keys of times. -/
theorem KeysOfTimes.edits {tl : Timeline} (h : tl.KeysOfTimes) (es : List Edit) :
    (tl.edits es).KeysOfTimes := by
  induction es generalizing tl with
  | nil => exact h
  | cons e rest ih => exact ih (h.edit e)

/-- On a stored key of a time, and away from NaN, the key order is the order of floats. -/
theorem KeysOfTimes.rank_order {tl : Timeline} (h : tl.KeysOfTimes) {e : Float × Rect}
    (he : e ∈ tl.toList) (hn : e.1.isNaN = false) (ht : t.isNaN = false) :
    (TimeKey.rank e.1 < rankOf t ↔ e.1 < t) ∧ (rankOf t < TimeKey.rank e.1 ↔ t < e.1) := by
  obtain ⟨⟨k, r⟩, he', rfl⟩ := List.mem_map.1 he
  obtain ⟨s, rfl⟩ := h _ he'
  have hsn : s.isNaN = false := by rwa [TimeKey.isNaN_ofTime] at hn
  exact ⟨TimeKey.rank_lt_rankOf_iff s t hsn ht, TimeKey.rankOf_lt_rank_iff s t hsn ht⟩

/-- **Where a time falls.** On every timeline built by inserts, removals and clears, the bracket
of every time `t` is `empty` exactly when nothing is stored; `exact b` exactly when `b` is stored
under the key of `t`; `clamped r` exactly when the key of `t` is below every stored key and `r`
is the first sample, or above every stored key and `r` is the last; and `between t1 left t2
right` exactly when `(t1, left)` and `(t2, right)` are stored, with keys below and above the key
of `t` and no stored key strictly between them, so `t1 ≠ t2`. When `t` and a stored time are not
NaN, the stored time is below or above the key of `t` exactly when it is below or above `t`. -/
theorem bracket_classifies_times (es : List Edit) (t : Float) :
    let tl := Timeline.empty.edits es
    let samples := tl.toList
    (tl.bracket t = .empty ↔ samples = []) ∧
    (∀ b, tl.bracket t = .exact b ↔ ((TimeKey.ofTime t).secs, b) ∈ samples) ∧
    (∀ r, tl.bracket t = .clamped r ↔
      (∃ x, samples.head? = some (x, r) ∧ ∀ e ∈ samples, rankOf t < TimeKey.rank e.1) ∨
      (∃ x, samples.getLast? = some (x, r) ∧ ∀ e ∈ samples, TimeKey.rank e.1 < rankOf t)) ∧
    (∀ t1 left t2 right, tl.bracket t = .between t1 left t2 right ↔
      (t1, left) ∈ samples ∧ (t2, right) ∈ samples ∧
      TimeKey.rank t1 < rankOf t ∧ rankOf t < TimeKey.rank t2 ∧
      ∀ e ∈ samples, TimeKey.rank e.1 ≤ TimeKey.rank t1 ∨ TimeKey.rank t2 ≤ TimeKey.rank e.1) ∧
    (∀ t1 left t2 right, tl.bracket t = .between t1 left t2 right → t1 ≠ t2) ∧
    (t.isNaN = false → ∀ e ∈ samples, e.1.isNaN = false →
      (TimeKey.rank e.1 < rankOf t ↔ e.1 < t) ∧ (rankOf t < TimeKey.rank e.1 ↔ t < e.1)) := by
  intro tl samples
  have hkeys : tl.KeysOfTimes := keysOfTimes_empty.edits es
  refine ⟨bracket_eq_empty_iff tl t, bracket_eq_exact_iff tl t, bracket_eq_clamped_iff tl t,
    fun t1 left t2 right => bracket_eq_between_iff tl t t1 t2 left right,
    fun t1 left t2 right h => ?distinct, fun ht e he hn => hkeys.rank_order t he hn ht⟩
  case distinct =>
    obtain ⟨-, -, hlt1, hlt2, -⟩ := (bracket_eq_between_iff tl t t1 t2 left right).1 h
    exact fun h12 => absurd (h12 ▸ hlt1) (Nat.lt_asymm hlt2)

end Timeline

end RegionTrack

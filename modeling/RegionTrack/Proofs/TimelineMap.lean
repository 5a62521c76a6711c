import Mathlib.Data.Finmap
import Mathlib.Data.Finset.Card
import RegionTrack.Proofs.TimeKey

/-!
# Timelines as finite maps from time keys to rectangles

A timeline behaves as a finite map `M` whose keys are the stored times `t + 0.0`, compared by
the total order on floats (the rank of their bits): inserting `r` at `t` gives what `M` held
under the key of `t` and sets it to `r`, removing gives it and erases the key, clearing empties
the map. Every query is a query of `M`: lookups and membership, the number of keys, the listing
in strictly increasing key order, the first and last keys, and the nearest keys at or before and
at or after a time.

The link is `Timeline.Represents tl M`: for every float, the entry stored under its rank holds
what `M` holds under it. Each edit keeps it (`Timeline.Represents.edit`), hence every run does
(`Timeline.Represents.edits`). The queries are read off the representation with the searches
of ordered lists proved first.

## Main definitions

* `SampleMap`: finite maps from times to rectangles
* `Timeline.Represents`: a timeline holds what a map holds
* `Timeline.Edit`, `Timeline.edits`, `Timeline.Edit.applyAll`: edits of a timeline and of a map

## Main results

* `Timeline.Represents.edits`: a run of edits keeps the representation
* `Timeline.Represents.atOrBefore?_eq_some_iff`, `Timeline.Represents.atOrAfter?_eq_some_iff`:
  the neighbours of a time are the greatest key at or below it and the least at or above it
* `Timeline.edits_agree_with_sampleMap`: every run of edits from an empty timeline
-/

namespace RegionTrack

/-! ## Searches in ordered lists -/

namespace Keyed

variable {α : Type} {key : α → Nat} {xs : List α} {x y : α}

theorem eq_of_key_eq (hs : Sorted key xs) (hx : x ∈ xs) (hy : y ∈ xs) (h : key x = key y) :
    x = y := by
  have hfx := find?_of_mem hs hx
  rw [h, find?_of_mem hs hy] at hfx
  exact (Option.some.inj hfx).symm

theorem key_le_of_getLast? (hs : Sorted key xs) (hl : xs.getLast? = some x) (hy : y ∈ xs) :
    key y ≤ key x := by
  obtain ⟨ys, rfl⟩ := List.getLast?_eq_some_iff.1 hl
  rcases List.mem_append.1 hy with hy | hy
  · exact Nat.le_of_lt ((List.pairwise_append.1 hs).2.2 y hy x (List.mem_singleton_self x))
  · rw [List.mem_singleton.1 hy]

theorem key_le_of_head? (hs : Sorted key xs) (hh : xs.head? = some x) (hy : y ∈ xs) :
    key x ≤ key y := by
  obtain ⟨ys, rfl⟩ := List.head?_eq_some_iff.1 hh
  rcases List.mem_cons.1 hy with rfl | hy
  · exact Nat.le_refl _
  · exact Nat.le_of_lt (List.rel_of_pairwise_cons hs hy)

/-- What the first element with key at least `n` is: a member with the least such key. -/
theorem find?_ge_spec (hs : Sorted key xs) {n : Nat} (h : xs.find? (fun y => n ≤ key y) = some x) :
    x ∈ xs ∧ n ≤ key x ∧ ∀ y ∈ xs, n ≤ key y → key x ≤ key y := by
  obtain ⟨hxn, as, bs, rfl, has⟩ := List.find?_eq_some_iff_append.1 h
  refine ⟨by simp, by simpa using hxn, fun y hy hyn => ?_⟩
  rcases List.mem_append.1 hy with hy | hy
  · exact absurd (by simpa using hyn) (by simpa using has y hy)
  rcases List.mem_cons.1 hy with rfl | hy
  · exact Nat.le_refl _
  · exact Nat.le_of_lt (List.rel_of_pairwise_cons (List.pairwise_append.1 hs).2.1 hy)

/-- The first element with key at least `n` is the one with the least such key. -/
theorem find?_ge_eq_some_iff (hs : Sorted key xs) (n : Nat) :
    xs.find? (fun y => n ≤ key y) = some x ↔
      x ∈ xs ∧ n ≤ key x ∧ ∀ y ∈ xs, n ≤ key y → key x ≤ key y := by
  refine ⟨find?_ge_spec hs, fun ⟨hx, hxn, hmin⟩ => ?_⟩
  obtain ⟨x', hx'⟩ := Option.isSome_iff_exists.1
    (List.find?_isSome.2 ⟨x, hx, by simpa using hxn⟩ :
      (xs.find? (fun y => n ≤ key y)).isSome)
  obtain ⟨hx'mem, hx'n, hmin'⟩ := find?_ge_spec hs hx'
  rw [hx', eq_of_key_eq hs hx'mem hx (Nat.le_antisymm (hmin' x hx hxn) (hmin x' hx'mem hx'n))]

theorem find?_ge_eq_none_iff (n : Nat) :
    xs.find? (fun y => n ≤ key y) = none ↔ ∀ y ∈ xs, key y < n := by
  simp

/-- What the last element with key at most `n` is: a member with the greatest such key. -/
theorem lastLe_spec (hs : Sorted key xs) {n : Nat}
    (h : (xs.filter fun y => key y ≤ n).getLast? = some x) :
    x ∈ xs ∧ key x ≤ n ∧ ∀ y ∈ xs, key y ≤ n → key y ≤ key x := by
  obtain ⟨hx, hxn⟩ := List.mem_filter.1 (List.mem_of_getLast? h)
  refine ⟨hx, by simpa using hxn, fun y hy hyn => ?_⟩
  exact key_le_of_getLast? (List.Pairwise.filter _ hs) h (List.mem_filter.2 ⟨hy, by simpa using hyn⟩)

/-- The last element with key at most `n` is the one with the greatest such key. -/
theorem lastLe_eq_some_iff (hs : Sorted key xs) (n : Nat) :
    (xs.filter fun y => key y ≤ n).getLast? = some x ↔
      x ∈ xs ∧ key x ≤ n ∧ ∀ y ∈ xs, key y ≤ n → key y ≤ key x := by
  refine ⟨lastLe_spec hs, fun ⟨hx, hxn, hmax⟩ => ?_⟩
  cases hl : (xs.filter fun y => key y ≤ n).getLast? with
  | none =>
    rw [List.getLast?_eq_none_iff, List.filter_eq_nil_iff] at hl
    exact absurd (by simpa using hxn) (hl x hx)
  | some x' =>
    obtain ⟨hx'mem, hx'n, hmax'⟩ := lastLe_spec hs hl
    rw [eq_of_key_eq hs hx'mem hx (Nat.le_antisymm (hmax x' hx'mem hx'n) (hmax' x hx hxn))]

theorem lastLe_eq_none_iff (n : Nat) :
    (xs.filter fun y => key y ≤ n).getLast? = none ↔ ∀ y ∈ xs, n < key y := by
  rw [List.getLast?_eq_none_iff, List.filter_eq_nil_iff]
  exact forall₂_congr fun y _ => by simp

end Keyed

/-- Finite maps from times to rectangles. -/
abbrev SampleMap := Finmap fun _ : Float => Rect

namespace Timeline

/-- The listing is in strictly increasing key order. -/
theorem toList_sorted (tl : Timeline) :
    Keyed.Sorted (fun e : Float × Rect => TimeKey.rank e.1) tl.toList :=
  List.pairwise_map.2 tl.sorted

/-- A timeline represents a map when, for every float, the entry stored under its rank holds
what the map holds under it. -/
def Represents (tl : Timeline) (M : SampleMap) : Prop :=
  ∀ x : Float, (Keyed.find? entryRank (TimeKey.rank x) tl.entries).map (·.2) = M.lookup x

variable {tl : Timeline} {M : SampleMap}

theorem represents_empty : Timeline.empty.Represents ∅ := by
  intro x
  simp [Timeline.empty, Keyed.find?, Finmap.lookup_empty]

namespace Represents

theorem get?_eq (h : tl.Represents M) (t : Float) :
    tl.get? t = M.lookup (TimeKey.ofTime t).secs :=
  h _

theorem contains_iff (h : tl.Represents M) (t : Float) :
    tl.contains t = true ↔ (TimeKey.ofTime t).secs ∈ M := by
  rw [contains, h.get?_eq, Finmap.lookup_isSome]

/-- Inserting stores the rectangle under the key of the time. -/
theorem insert (h : tl.Represents M) (t : Float) (r : Rect) :
    (tl.insert t r).2.Represents (M.insert (TimeKey.ofTime t).secs r) := by
  intro x
  show (Keyed.find? entryRank (TimeKey.rank x)
    (Keyed.insert entryRank (TimeKey.ofTime t, r) tl.entries)).map (·.2) = _
  rw [Keyed.find?_insert]
  by_cases hx : (TimeKey.ofTime t).secs = x
  · subst hx
    simp [entryRank, Finmap.lookup_insert]
  · have hr : entryRank (TimeKey.ofTime t, r) ≠ TimeKey.rank x :=
      fun hr => hx (TimeKey.rank_eq_iff.1 hr)
    rw [if_neg hr, h x, Finmap.lookup_insert_of_ne _ (Ne.symm hx)]

/-- Removing erases the key of the time. -/
theorem remove (h : tl.Represents M) (t : Float) :
    (tl.remove t).2.Represents (M.erase (TimeKey.ofTime t).secs) := by
  intro x
  show (Keyed.find? entryRank (TimeKey.rank x)
    (Keyed.erase entryRank (rankOf t) tl.entries)).map (·.2) = _
  rw [Keyed.find?_erase tl.sorted]
  by_cases hx : (TimeKey.ofTime t).secs = x
  · subst hx
    simp [rankOf, Finmap.lookup_erase]
  · have hr : rankOf t ≠ TimeKey.rank x := fun hr => hx (TimeKey.rank_eq_iff.1 hr)
    rw [if_neg hr, h x, Finmap.lookup_erase_ne (Ne.symm hx)]

theorem insert_fst (h : tl.Represents M) (t : Float) (r : Rect) :
    (tl.insert t r).1 = M.lookup (TimeKey.ofTime t).secs :=
  h.get?_eq t

theorem remove_fst (h : tl.Represents M) (t : Float) :
    (tl.remove t).1 = M.lookup (TimeKey.ofTime t).secs :=
  h.get?_eq t

/-- The listing holds each key of the map once, with its rectangle. -/
theorem mem_toList (h : tl.Represents M) {x : Float} {b : Rect} :
    (x, b) ∈ tl.toList ↔ M.lookup x = some b := by
  rw [← h x]
  constructor
  · intro hm
    obtain ⟨e, he, hex⟩ := List.mem_map.1 hm
    obtain ⟨rfl, rfl⟩ := Prod.mk.inj hex
    rw [show TimeKey.rank e.1.secs = entryRank e from rfl, Keyed.find?_of_mem tl.sorted he]
    rfl
  · intro hf
    obtain ⟨e, he, rfl⟩ := Option.map_eq_some_iff.1 hf
    obtain ⟨hmem, hkey⟩ := Keyed.find?_eq_some he
    have hx : e.1.secs = x := TimeKey.rank_eq_iff.1 hkey
    exact List.mem_map.2 ⟨e, hmem, by rw [← hx]⟩

theorem mem_iff_mem_toList (h : tl.Represents M) {x : Float} :
    x ∈ M ↔ ∃ b, (x, b) ∈ tl.toList := by
  simp only [Finmap.mem_iff, h.mem_toList]

theorem forall_mem_iff (h : tl.Represents M) {P : Float → Prop} :
    (∀ y ∈ M, P y) ↔ ∀ e ∈ tl.toList, P e.1 := by
  constructor
  · intro hP e he
    exact hP e.1 (h.mem_iff_mem_toList.2 ⟨e.2, he⟩)
  · intro hP y hy
    obtain ⟨b, hb⟩ := h.mem_iff_mem_toList.1 hy
    exact hP (y, b) hb

theorem keys_eq (h : tl.Represents M) : M.keys = (tl.toList.map Prod.fst).toFinset := by
  ext x
  rw [Finmap.mem_keys, h.mem_iff_mem_toList, List.mem_toFinset, List.mem_map]
  constructor
  · rintro ⟨b, hb⟩
    exact ⟨(x, b), hb, rfl⟩
  · rintro ⟨e, he, rfl⟩
    exact ⟨e.2, he⟩

/-- The number of entries is the number of keys of the map: the listed times are distinct, their
ranks being strictly increasing. -/
theorem size_eq (h : tl.Represents M) : tl.size = M.keys.card := by
  have hne : ∀ {a b : Float × Rect}, TimeKey.rank a.1 < TimeKey.rank b.1 → a.1 ≠ b.1 :=
    fun hlt heq => Nat.ne_of_lt hlt (congrArg TimeKey.rank heq)
  have hnodup : (tl.toList.map Prod.fst).Nodup := List.pairwise_map.2 (tl.toList_sorted.imp hne)
  rw [h.keys_eq, List.toFinset_card_of_nodup hnodup, List.length_map, size, toList,
    List.length_map]

theorem toList_eq_nil_iff (h : tl.Represents M) : tl.toList = [] ↔ M = ∅ := by
  constructor
  · intro hl
    refine Finmap.ext_lookup fun x => ?_
    rw [Finmap.lookup_empty]
    cases hx : M.lookup x with
    | none => rfl
    | some b => simpa [hl] using h.mem_toList.2 hx
  · rintro rfl
    refine List.eq_nil_iff_forall_not_mem.2 fun e he => ?_
    simpa [Finmap.lookup_empty] using h.mem_toList.1 he

theorem isEmpty_iff (h : tl.Represents M) : tl.isEmpty = true ↔ M = ∅ := by
  rw [← h.toList_eq_nil_iff, isEmpty, toList, List.isEmpty_iff, List.map_eq_nil_iff]

/-! ### First and last keys -/

theorem span?_spec (h : tl.Represents M) {a z : Float} (hs : tl.span? = some (a, z)) :
    a ∈ M ∧ z ∈ M ∧ ∀ x ∈ M, TimeKey.rank a ≤ TimeKey.rank x ∧ TimeKey.rank x ≤ TimeKey.rank z := by
  unfold span? at hs
  split at hs
  next ka ra kz rz hhead hlast =>
    obtain ⟨rfl, rfl⟩ := Prod.mk.inj (Option.some.inj hs)
    have hmem : ∀ {e : TimeKey × Rect}, e ∈ tl.entries → e.1.secs ∈ M := fun he =>
      h.mem_iff_mem_toList.2 ⟨_, List.mem_map.2 ⟨_, he, rfl⟩⟩
    refine ⟨hmem (List.mem_of_head? hhead), hmem (List.mem_of_getLast? hlast), ?_⟩
    rw [h.forall_mem_iff]
    intro e he
    obtain ⟨e', he', rfl⟩ := List.mem_map.1 he
    have hfirst := Keyed.key_le_of_head? tl.sorted hhead he'
    have hlast := Keyed.key_le_of_getLast? tl.sorted hlast he'
    exact ⟨hfirst, hlast⟩
  next => cases hs

theorem span?_eq_none_iff (h : tl.Represents M) : tl.span? = none ↔ M = ∅ := by
  rw [← h.toList_eq_nil_iff, toList, List.map_eq_nil_iff]
  unfold span?
  cases hl : tl.entries with
  | nil => simp
  | cons e rest =>
    obtain ⟨last, hlast⟩ : ∃ last, (e :: rest).getLast? = some last :=
      ⟨_, List.getLast?_eq_getLast_of_ne_nil (List.cons_ne_nil e rest)⟩
    obtain ⟨ka, ra⟩ := e
    obtain ⟨kz, rz⟩ := last
    simp [hlast]

/-- The span is the least and the greatest key of the map, which are unique since the ranks are
those of the floats. -/
theorem span?_eq_some_iff (h : tl.Represents M) {a z : Float} :
    tl.span? = some (a, z) ↔
      a ∈ M ∧ z ∈ M ∧ ∀ x ∈ M, TimeKey.rank a ≤ TimeKey.rank x ∧ TimeKey.rank x ≤ TimeKey.rank z := by
  refine ⟨h.span?_spec, fun ⟨ha, hz, hord⟩ => ?_⟩
  cases hs : tl.span? with
  | none =>
    rw [h.span?_eq_none_iff] at hs
    subst hs
    exact absurd ha Finmap.notMem_empty
  | some p =>
    obtain ⟨a', z'⟩ := p
    obtain ⟨ha', hz', hord'⟩ := h.span?_spec hs
    have hfirst : a' = a := TimeKey.rank_eq_iff.1 (Nat.le_antisymm (hord' a ha).1 (hord a' ha').1)
    have hlast : z' = z := TimeKey.rank_eq_iff.1 (Nat.le_antisymm (hord z' hz').2 (hord' z hz).2)
    rw [hfirst, hlast]

/-! ### Neighbours of a time -/

/-- The entry at or before a time is the one with the greatest key at most the time's key. -/
theorem atOrBefore?_eq_some_iff (h : tl.Represents M) (t x : Float) (b : Rect) :
    tl.atOrBefore? t = some (x, b) ↔
      M.lookup x = some b ∧ TimeKey.rank x ≤ rankOf t ∧
        ∀ y ∈ M, TimeKey.rank y ≤ rankOf t → TimeKey.rank y ≤ TimeKey.rank x := by
  rw [atOrBefore?, Keyed.lastLe_eq_some_iff tl.toList_sorted, h.mem_toList, h.forall_mem_iff]

theorem atOrBefore?_eq_none_iff (h : tl.Represents M) (t : Float) :
    tl.atOrBefore? t = none ↔ ∀ y ∈ M, rankOf t < TimeKey.rank y := by
  rw [atOrBefore?, Keyed.lastLe_eq_none_iff, h.forall_mem_iff]

/-- The entry at or after a time is the one with the least key at least the time's key. -/
theorem atOrAfter?_eq_some_iff (h : tl.Represents M) (t x : Float) (b : Rect) :
    tl.atOrAfter? t = some (x, b) ↔
      M.lookup x = some b ∧ rankOf t ≤ TimeKey.rank x ∧
        ∀ y ∈ M, rankOf t ≤ TimeKey.rank y → TimeKey.rank x ≤ TimeKey.rank y := by
  rw [atOrAfter?, Keyed.find?_ge_eq_some_iff tl.toList_sorted, h.mem_toList, h.forall_mem_iff]

theorem atOrAfter?_eq_none_iff (h : tl.Represents M) (t : Float) :
    tl.atOrAfter? t = none ↔ ∀ y ∈ M, TimeKey.rank y < rankOf t := by
  rw [atOrAfter?, Keyed.find?_ge_eq_none_iff, h.forall_mem_iff]

end Represents

/-! ## Runs of edits -/

/-- An edit of a timeline. -/
inductive Edit where
  | insert (t : Float) (r : Rect)
  | remove (t : Float)
  | clear

/-- The timeline after an edit. -/
def edit (tl : Timeline) : Edit → Timeline
  | .insert t r => (tl.insert t r).2
  | .remove t => (tl.remove t).2
  | .clear => .empty

/-- The timeline after a run of edits. -/
def edits (tl : Timeline) (es : List Edit) : Timeline := es.foldl edit tl

namespace Edit

/-- The map after an edit: keys are the times plus `0.0`. -/
def apply : Edit → SampleMap → SampleMap
  | .insert t r, M => M.insert (TimeKey.ofTime t).secs r
  | .remove t, M => M.erase (TimeKey.ofTime t).secs
  | .clear, _ => ∅

/-- The map after a run of edits. -/
def applyAll (M : SampleMap) (es : List Edit) : SampleMap := es.foldl (fun M e => e.apply M) M

end Edit

/-- One edit keeps the representation. -/
theorem Represents.edit (h : tl.Represents M) (e : Edit) : (tl.edit e).Represents (e.apply M) := by
  cases e with
  | insert t r => exact h.insert t r
  | remove t => exact h.remove t
  | clear => exact represents_empty

/-- A run of edits keeps the representation. -/
theorem Represents.edits (h : tl.Represents M) (es : List Edit) :
    (tl.edits es).Represents (Edit.applyAll M es) := by
  induction es generalizing tl M with
  | nil => exact h
  | cons e rest ih => exact ih (h.edit e)

/-- After any run of inserts, removals and clears from an empty timeline, the timeline answers
every query as the finite map the same edits build, keyed by the times plus `0.0` in the total
order of floats: `-0.0` and `0.0` are one key and two times that are not NaN are one key exactly
when they are equal as numbers; inserting and removing give what the map held under the key;
lookups, membership and the number of entries are the map's; the listing holds each key once,
with its rectangle, in strictly increasing order; the span is the least and greatest key; and
the neighbours of a time are the greatest key at or below its key and the least at or above. -/
theorem edits_agree_with_sampleMap (es : List Edit) :
    let tl := Timeline.empty.edits es
    let M := Edit.applyAll ∅ es
    (TimeKey.ofTime (-0.0)).secs = (TimeKey.ofTime 0.0).secs ∧
    (∀ t u : Float, t.isNaN = false → u.isNaN = false →
      ((TimeKey.ofTime t).secs = (TimeKey.ofTime u).secs ↔ (t == u) = true)) ∧
    (∀ t r, (tl.insert t r).1 = M.lookup (TimeKey.ofTime t).secs) ∧
    (∀ t, (tl.remove t).1 = M.lookup (TimeKey.ofTime t).secs) ∧
    (∀ t, tl.get? t = M.lookup (TimeKey.ofTime t).secs) ∧
    (∀ t, tl.contains t = true ↔ (TimeKey.ofTime t).secs ∈ M) ∧
    tl.size = M.keys.card ∧
    Keyed.Sorted (fun e : Float × Rect => TimeKey.rank e.1) tl.toList ∧
    (∀ x b, (x, b) ∈ tl.toList ↔ M.lookup x = some b) ∧
    (tl.span? = none ↔ M = ∅) ∧
    (∀ a z, tl.span? = some (a, z) ↔ a ∈ M ∧ z ∈ M ∧
      ∀ x ∈ M, TimeKey.rank a ≤ TimeKey.rank x ∧ TimeKey.rank x ≤ TimeKey.rank z) ∧
    (∀ t x b, tl.atOrBefore? t = some (x, b) ↔ M.lookup x = some b ∧
      TimeKey.rank x ≤ rankOf t ∧ ∀ y ∈ M, TimeKey.rank y ≤ rankOf t → TimeKey.rank y ≤ TimeKey.rank x) ∧
    (∀ t, tl.atOrBefore? t = none ↔ ∀ y ∈ M, rankOf t < TimeKey.rank y) ∧
    (∀ t x b, tl.atOrAfter? t = some (x, b) ↔ M.lookup x = some b ∧
      rankOf t ≤ TimeKey.rank x ∧ ∀ y ∈ M, rankOf t ≤ TimeKey.rank y → TimeKey.rank x ≤ TimeKey.rank y) ∧
    (∀ t, tl.atOrAfter? t = none ↔ ∀ y ∈ M, TimeKey.rank y < rankOf t) := by
  intro tl M
  have h : tl.Represents M := represents_empty.edits es
  exact ⟨TimeKey.ofTime_neg_zero, fun _ _ => TimeKey.ofTime_eq_iff_beq, h.insert_fst, h.remove_fst,
    h.get?_eq, h.contains_iff, h.size_eq, tl.toList_sorted, fun _ _ => h.mem_toList,
    h.span?_eq_none_iff, fun _ _ => h.span?_eq_some_iff, h.atOrBefore?_eq_some_iff,
    h.atOrBefore?_eq_none_iff, h.atOrAfter?_eq_some_iff, h.atOrAfter?_eq_none_iff⟩

end Timeline

end RegionTrack

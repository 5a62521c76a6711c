/-!
# Lists in strictly increasing key order

Keyframes of a curve and samples of a timeline are both stored as lists kept in strictly
increasing order of a natural key (the frame, the rank of a time): a finite map with its keys in
order. Inserting puts an element in its place and replaces one with the same key; erasing drops
the element with a given key.

Both operations keep the order (`sorted_insert`, `sorted_erase`), so the lists built by them
never hold two elements with one key, and looking up a key finds the one element with it
(`find?_insert`, `find?_erase`). Two ordered lists with the same members are equal
(`eq_of_mem_iff`): an ordered list is determined by the map it holds.
-/

namespace RegionTrack

namespace Keyed

variable {α : Type} (key : α → Nat)

/-- The elements are in strictly increasing key order. -/
def Sorted (xs : List α) : Prop := xs.Pairwise (key · < key ·)

/-- Inserts `x` in key order, replacing the element with the same key. -/
def insert (x : α) : List α → List α
  | [] => [x]
  | y :: rest =>
    if key x < key y then x :: y :: rest
    else if key x = key y then x :: rest
    else y :: insert x rest

/-- Removes the first element with key `n`, if any. -/
def erase (n : Nat) : List α → List α
  | [] => []
  | y :: rest => if key y = n then rest else y :: erase n rest

/-- The first element with key `n`. -/
def find? (n : Nat) (xs : List α) : Option α := xs.find? (key · = n)

variable {key}

theorem sorted_nil : Sorted key ([] : List α) := List.Pairwise.nil

theorem mem_insert {x y : α} {xs : List α} (h : y ∈ insert key x xs) : y = x ∨ y ∈ xs := by
  induction xs with
  | nil => simpa [insert] using h
  | cons z rest ih => grind [insert]

/-- Inserting keeps the key order: the element goes in front of the first one with a larger key,
or takes the place of the one with its key. -/
theorem sorted_insert (x : α) {xs : List α} (h : Sorted key xs) : Sorted key (insert key x xs) := by
  induction xs with
  | nil => exact List.pairwise_singleton _ x
  | cons y rest ih =>
    rw [Sorted, List.pairwise_cons] at h
    simp only [insert]
    split
    next hlt =>
      refine List.pairwise_cons.2 ⟨?_, List.pairwise_cons.2 h⟩
      intro z hz
      rcases List.mem_cons.1 hz with rfl | hz
      · exact hlt
      · exact Nat.lt_trans hlt (h.1 z hz)
    next hge =>
      split
      next heq =>
        exact List.pairwise_cons.2 ⟨fun z hz => heq ▸ h.1 z hz, h.2⟩
      next hne =>
        refine List.pairwise_cons.2 ⟨?_, ih h.2⟩
        intro z hz
        rcases mem_insert hz with rfl | hz
        · omega
        · exact h.1 z hz

theorem erase_sublist (n : Nat) (xs : List α) : (erase key n xs).Sublist xs := by
  induction xs with
  | nil => simp [erase]
  | cons y rest ih =>
    simp only [erase]
    split
    · exact List.sublist_cons_self y rest
    · exact ih.cons_cons y

/-- Erasing keeps the key order. -/
theorem sorted_erase (n : Nat) {xs : List α} (h : Sorted key xs) : Sorted key (erase key n xs) :=
  List.Pairwise.sublist (erase_sublist n xs) h

theorem find?_insert (x : α) (xs : List α) (n : Nat) :
    find? key n (insert key x xs) = if key x = n then some x else find? key n xs := by
  induction xs with
  | nil => by_cases h : key x = n <;> simp [insert, find?, h]
  | cons y rest ih =>
    simp only [find?] at ih ⊢
    simp only [insert]
    split
    · by_cases h : key x = n <;> simp [h]
    · split
      next heq => by_cases h : key x = n <;> simp [h, ← heq]
      next hne =>
        by_cases hy : key y = n
        · have hx : key x ≠ n := by omega
          simp [hy, hx]
        · simp [hy, ih]

/-- In an ordered list, nothing after the first element has a key at most the first one's. -/
theorem find?_eq_none_of_sorted {y : α} {rest : List α} (h : Sorted key (y :: rest)) {n : Nat}
    (hn : n ≤ key y) : find? key n rest = none := by
  rw [find?, List.find?_eq_none]
  intro z hz
  have := List.rel_of_pairwise_cons h hz
  simp only [decide_eq_true_eq]
  omega

/-- Erasing key `m` from an ordered list removes the one element with that key and no other. -/
theorem find?_erase {m : Nat} {xs : List α} (hs : Sorted key xs) (n : Nat) :
    find? key n (erase key m xs) = if m = n then none else find? key n xs := by
  induction xs with
  | nil => simp [erase, find?]
  | cons y rest ih =>
    simp only [erase]
    split
    next hy =>
      by_cases h : m = n
      · simp only [h, if_true]
        exact find?_eq_none_of_sorted hs (by omega)
      · have hyn : key y ≠ n := hy ▸ h
        simp [find?, h, hyn]
    next hy =>
      have ih := ih (List.Pairwise.of_cons hs)
      simp only [find?] at ih ⊢
      by_cases hyn : key y = n
      · have h : m ≠ n := by omega
        simp [hyn, h]
      · simp [hyn, ih]

theorem find?_eq_some {n : Nat} {xs : List α} {x : α} (h : find? key n xs = some x) :
    x ∈ xs ∧ key x = n :=
  ⟨List.mem_of_find?_eq_some h, by simpa using List.find?_some h⟩

/-- In an ordered list, looking up the key of a member finds that member. -/
theorem find?_of_mem {xs : List α} (hs : Sorted key xs) {x : α} (hx : x ∈ xs) :
    find? key (key x) xs = some x := by
  induction xs with
  | nil => cases hx
  | cons y rest ih =>
    rw [Sorted, List.pairwise_cons] at hs
    rcases List.mem_cons.1 hx with rfl | hx
    · simp [find?]
    · have hne : key y ≠ key x := Nat.ne_of_lt (hs.1 x hx)
      have ih := ih hs.2 hx
      simp only [find?] at ih ⊢
      rw [List.find?_cons_of_neg (by simpa using hne)]
      exact ih

/-- In an ordered list, an element is a member exactly when looking up its key finds it. -/
theorem mem_iff_find? {xs : List α} (hs : Sorted key xs) {x : α} :
    x ∈ xs ↔ find? key (key x) xs = some x :=
  ⟨find?_of_mem hs, fun h => (find?_eq_some h).1⟩

/-- Two ordered lists with the same members are equal: their heads are the least keys of one set,
so they are one element. -/
theorem eq_of_mem_iff {xs ys : List α} (hx : Sorted key xs) (hy : Sorted key ys)
    (h : ∀ z, z ∈ xs ↔ z ∈ ys) : xs = ys := by
  induction xs generalizing ys with
  | nil => exact (List.eq_nil_iff_forall_not_mem.2 fun z hz => by simpa using (h z).2 hz).symm
  | cons x xs ih =>
    cases ys with
    | nil => simpa using (h x).1 List.mem_cons_self
    | cons y ys =>
      rw [Sorted, List.pairwise_cons] at hx hy
      have hxy : x = y := by
        rcases List.mem_cons.1 ((h x).1 List.mem_cons_self) with hxy | hx'
        · exact hxy
        rcases List.mem_cons.1 ((h y).2 List.mem_cons_self) with hyx | hy'
        · exact hyx.symm
        exact absurd (Nat.lt_trans (hy.1 x hx') (hx.1 y hy')) (Nat.lt_irrefl _)
      subst hxy
      refine congrArg _ (ih hx.2 hy.2 fun z => ?_)
      constructor
      · intro hz
        rcases List.mem_cons.1 ((h z).1 (List.mem_cons_of_mem _ hz)) with rfl | hz'
        · exact absurd (hx.1 z hz) (Nat.lt_irrefl _)
        · exact hz'
      · intro hz
        rcases List.mem_cons.1 ((h z).2 (List.mem_cons_of_mem _ hz)) with rfl | hz'
        · exact absurd (hy.1 z hz) (Nat.lt_irrefl _)
        · exact hz'

end Keyed

end RegionTrack

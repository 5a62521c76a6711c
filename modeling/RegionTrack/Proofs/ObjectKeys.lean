import RegionTrack.Json.Value

/-!
# The keys of an object

`Object.insert` sets one key: a lookup of that key finds the new value and every other lookup is
unchanged (`Object.lookup_insert`), whatever the order of the members. On members with strictly
increasing keys, insertion keeps that order (`Object.sorted_insert`), and a key above every
present one is appended at the end (`Object.insert_of_lt`); that is how a reader that meets the
keys of a written object in increasing order rebuilds it.

## Main definitions

* `Json.Object.Sorted`: members with strictly increasing keys

## Main statements

* `Json.Object.lookup_ofList`: a lookup in an object built from pairs finds the last pair with
  the key.
* `Json.Object.sorted_ofList`: an object built from pairs has strictly increasing keys.
* `Json.Object.mem_ofList`, `Json.Object.mem_keys_ofList`: its members are among the pairs, and
  its keys are theirs.
-/

namespace RegionTrack.Json.Object

/-- Members whose keys strictly increase. -/
def Sorted (ms : List (String × Value)) : Prop := (ms.map Prod.fst).Pairwise (· < ·)

variable {k k' : String} {v : Value} {ms : List (String × Value)}

theorem sorted_nil : Sorted [] := List.Pairwise.nil

theorem sorted_cons {w : Value} :
    Sorted ((k, w) :: ms) ↔ (∀ x ∈ ms.map Prod.fst, k < x) ∧ Sorted ms := by
  simp only [Sorted, List.map_cons, List.pairwise_cons]

theorem lookup_cons {w : Value} :
    ((k, w) :: ms).lookup k' = if k' = k then some w else ms.lookup k' := by
  by_cases h : k' = k
  · subst h
    simp
  · have hb : (k' == k) = false := beq_eq_false_iff_ne.2 h
    simp [List.lookup_cons, hb, h]

theorem lookup_insert : (insert k v ms).lookup k' = if k' = k then some v else ms.lookup k' := by
  induction ms with
  | nil => simp [insert, lookup_cons]
  | cons m ms ih =>
    obtain ⟨k₁, w⟩ := m
    unfold insert
    by_cases hlt : k < k₁
    · simp only [hlt, if_true, lookup_cons]
    · by_cases heq : k = k₁
      · subst heq
        by_cases h' : k' = k <;> simp [h', lookup_cons]
      · simp only [hlt, heq, if_false, lookup_cons, ih]
        by_cases h₁ : k' = k₁
        · subst h₁
          simp [Ne.symm heq]
        · simp [h₁]

/-- The members after an insertion are the inserted one and members from before. -/
theorem mem_insert {m : String × Value} (h : m ∈ insert k v ms) : m = (k, v) ∨ m ∈ ms := by
  induction ms with
  | nil => simpa [insert] using h
  | cons m₁ ms ih =>
    obtain ⟨k₁, w⟩ := m₁
    unfold insert at h
    by_cases hlt : k < k₁
    · simpa [hlt] using h
    · by_cases heq : k = k₁
      · subst heq
        simp only [hlt, if_false, if_true, List.mem_cons] at h
        rcases h with h | h
        · exact .inl h
        · exact .inr (List.mem_cons_of_mem _ h)
      · simp only [hlt, heq, if_false, List.mem_cons] at h
        rcases h with h | h
        · exact .inr (h ▸ List.mem_cons_self ..)
        · rcases ih h with h | h
          · exact .inl h
          · exact .inr (List.mem_cons_of_mem _ h)

/-- The keys after an insertion are the inserted key and the keys before. -/
theorem mem_keys_insert {x : String} (h : x ∈ (insert k v ms).map Prod.fst) :
    x = k ∨ x ∈ ms.map Prod.fst := by
  obtain ⟨m, hm, rfl⟩ := List.mem_map.1 h
  rcases mem_insert hm with rfl | hm
  · exact .inl rfl
  · exact .inr (List.mem_map_of_mem hm)

theorem sorted_insert (h : Sorted ms) : Sorted (insert k v ms) := by
  induction ms with
  | nil => exact List.pairwise_singleton _ _
  | cons m ms ih =>
    obtain ⟨k₁, w⟩ := m
    obtain ⟨hk₁, hms⟩ := sorted_cons.1 h
    unfold insert
    by_cases hlt : k < k₁
    · simp only [hlt, if_true]
      refine sorted_cons.2 ⟨?_, h⟩
      intro x hx
      rcases List.mem_cons.1 hx with rfl | hx
      · exact hlt
      · exact String.lt_trans hlt (hk₁ x hx)
    · by_cases heq : k = k₁
      · subst heq
        simpa using sorted_cons.2 ⟨hk₁, hms⟩
      · have hgt : k₁ < k := Std.lt_of_le_of_ne (String.not_lt.1 hlt) (Ne.symm heq)
        simp only [hlt, heq, if_false]
        refine sorted_cons.2 ⟨fun x hx => ?_, ih hms⟩
        rcases mem_keys_insert hx with rfl | hx
        · exact hgt
        · exact hk₁ x hx

/-- A key above every present key is appended. -/
theorem insert_of_lt (h : ∀ x ∈ ms.map Prod.fst, x < k) : insert k v ms = ms ++ [(k, v)] := by
  induction ms with
  | nil => rfl
  | cons m ms ih =>
    obtain ⟨k₁, w⟩ := m
    have hk₁ : k₁ < k := h k₁ (List.mem_cons_self ..)
    have hne : k ≠ k₁ := fun he => String.lt_irrefl k (he ▸ hk₁)
    unfold insert
    simp only [String.lt_asymm hk₁, hne, if_false, List.cons_append]
    rw [ih fun x hx => h x (List.mem_cons_of_mem _ hx)]

theorem lookup_foldl_insert (pairs : List (String × Value)) (acc : List (String × Value)) :
    (pairs.foldl (fun acc kv => insert kv.1 kv.2 acc) acc).lookup k =
      (pairs.reverse.lookup k).or (acc.lookup k) := by
  induction pairs generalizing acc with
  | nil => rfl
  | cons kv pairs ih =>
    obtain ⟨k₁, v₁⟩ := kv
    rw [List.foldl_cons, ih, lookup_insert, List.reverse_cons, List.lookup_append,
      Option.or_assoc, lookup_cons]
    congr 1
    by_cases hk : k = k₁ <;> simp [hk]

/-- A lookup in an object built from pairs finds the last pair with the key. -/
theorem lookup_ofList (pairs : List (String × Value)) :
    (ofList pairs).lookup k = pairs.reverse.lookup k := by
  simp [ofList, lookup_foldl_insert]

theorem mem_foldl_insert {m : String × Value} (pairs acc : List (String × Value))
    (h : m ∈ pairs.foldl (fun acc kv => insert kv.1 kv.2 acc) acc) : m ∈ acc ∨ m ∈ pairs := by
  induction pairs generalizing acc with
  | nil => exact .inl h
  | cons kv pairs ih =>
    rcases ih _ h with h | h
    · rcases mem_insert h with rfl | h
      · exact .inr List.mem_cons_self
      · exact .inl h
    · exact .inr (List.mem_cons_of_mem _ h)

/-- The members of an object built from pairs are among the pairs. -/
theorem mem_ofList {m : String × Value} {pairs : List (String × Value)} (h : m ∈ ofList pairs) :
    m ∈ pairs :=
  (mem_foldl_insert pairs [] h).resolve_left List.not_mem_nil

/-- Every key of the pairs is a key of the object built from them. -/
theorem mem_keys_ofList {pairs : List (String × Value)} (h : k ∈ pairs.map Prod.fst) :
    k ∈ (ofList pairs).map Prod.fst := by
  obtain ⟨p, hp, rfl⟩ := List.mem_map.1 h
  have hsome : ((ofList pairs).lookup p.1).isSome = true := by
    rw [lookup_ofList, List.lookup_isSome_iff]
    exact ⟨p, List.mem_reverse.2 hp, by simp⟩
  obtain ⟨q, hq, hpq⟩ := List.lookup_isSome_iff.1 hsome
  rw [beq_iff_eq.1 hpq]
  exact List.mem_map_of_mem hq

/-- An object built from pairs has strictly increasing keys, since every insertion keeps them
increasing. -/
theorem sorted_ofList (pairs : List (String × Value)) : Sorted (ofList pairs) := by
  unfold ofList
  suffices ∀ acc, Sorted acc → Sorted (pairs.foldl (fun acc kv => insert kv.1 kv.2 acc) acc) from
    this [] sorted_nil
  induction pairs with
  | nil => exact fun _ h => h
  | cons kv pairs ih => exact fun acc h => ih _ (sorted_insert h)

end RegionTrack.Json.Object

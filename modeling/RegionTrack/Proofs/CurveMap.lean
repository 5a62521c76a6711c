import Mathlib.Data.Finmap
import Mathlib.Data.Finset.Sort
import RegionTrack.Curve

/-!
# Curves as finite maps from frames to keyframes

The keyframes of a curve behave as a finite map `M` from frames to keyframes: adding `k` sets
`M[k.frame] := k`, removing frame `g` erases `g` and says whether it was there, replacing the
keyframes by `ks` starts from the empty map and adds the members of `ks` in order (so of two on
one frame the later wins, and the order of distinct frames does not matter), and clearing
empties the map.

The link is `Curve.Represents c M`: on every frame, the first keyframe of `c` on that frame is
what `M` holds there. Every edit keeps it (`Curve.Represents.edit`), so every run of edits from
an empty curve does (`Curve.Represents.edits`). Since the keyframes of a curve are in strictly
increasing frame order, a curve that represents `M` lists exactly the keyframes of `M` in frame
order, and its membership test, size and emptiness are those of `M`.

## Main definitions

* `KeyMap`: finite maps from frames to keyframes, and `KeyMap.listing`, their frame-ordered
  keyframes
* `Curve.Edit`, `Curve.edits`, `Curve.Edit.applyAll`: edits of a curve and of a map
* `Curve.Represents`: a curve holds what a map holds

## Main results

* `Curve.Represents.edits`: a run of edits keeps the representation
* `Curve.Represents.keys_eq_listing`: a curve lists the keyframes of the map it represents
* `Curve.edits_agree_with_keyMap`: every run of edits from an empty curve
-/

namespace RegionTrack

/-- Finite maps from frames to keyframes. -/
abbrev KeyMap := Finmap fun _ : Nat => Keyframe

namespace KeyMap

/-- The keyframes of a map in increasing frame order. -/
def listing (M : KeyMap) : List Keyframe := (M.keys.sort (· ≤ ·)).filterMap M.lookup

/-- The map holding the keyframes `ks`, added in order: of two on one frame the later wins. -/
def ofKeys (ks : List Keyframe) : KeyMap := ks.foldl (fun M k => M.insert k.frame k) ∅

/-- Every keyframe of the map sits under its own frame. -/
def Keyed (M : KeyMap) : Prop := ∀ f k, M.lookup f = some k → k.frame = f

variable {M : KeyMap}

theorem mem_listing (hM : M.Keyed) {k : Keyframe} : k ∈ M.listing ↔ M.lookup k.frame = some k := by
  simp only [listing, List.mem_filterMap, Finset.mem_sort, Finmap.mem_keys]
  constructor
  · rintro ⟨f, -, hf⟩
    rwa [hM f k hf]
  · intro hk
    exact ⟨k.frame, Finmap.mem_iff.2 ⟨k, hk⟩, hk⟩

theorem listing_sorted (hM : M.Keyed) : Keyed.Sorted (·.frame) M.listing := by
  have hsort : (M.keys.sort (· ≤ ·)).Pairwise (· < ·) := (Finset.sortedLT_sort M.keys).pairwise
  refine hsort.filterMap _ ?_
  intro f f' hlt k hk k' hk'
  show k.frame < k'.frame
  rw [hM f k hk, hM f' k' hk']
  exact hlt

/-- A map lists one keyframe for each of its frames: each frame finds its keyframe, so the
`filterMap` drops nothing. -/
theorem length_listing (M : KeyMap) : M.listing.length = M.keys.card := by
  rw [listing, ← Finset.length_sort (· ≤ ·)]
  have hsome : ∀ f ∈ M.keys.sort (· ≤ ·), (M.lookup f).isSome := by
    intro f hf
    rw [Finmap.lookup_isSome, ← Finmap.mem_keys]
    exact (Finset.mem_sort _).1 hf
  rw [List.length_filterMap_eq_countP, List.countP_eq_length.2 hsome]

end KeyMap

namespace Curve

theorem contains_eq_isSome (c : Curve) (f : Nat) :
    c.contains f = (Keyed.find? (·.frame) f c.keys).isSome := by
  rw [contains, Keyed.find?, Bool.eq_iff_iff, List.any_eq_true, List.find?_isSome]

/-! ## Representing a map -/

/-- A curve represents a map when on every frame it finds what the map holds there. -/
def Represents (c : Curve) (M : KeyMap) : Prop := ∀ f, Keyed.find? (·.frame) f c.keys = M.lookup f

variable {c : Curve} {M : KeyMap}

theorem represents_empty (d : Float) : (empty d).Represents ∅ := by
  intro f
  simp [empty, Keyed.find?, Finmap.lookup_empty]

namespace Represents

theorem keyed (h : c.Represents M) : M.Keyed := by
  intro f k hk
  rw [← h f] at hk
  exact (Keyed.find?_eq_some hk).2

theorem add (h : c.Represents M) (k : Keyframe) : (c.add k).Represents (M.insert k.frame k) := by
  intro f
  rw [Curve.add, Keyed.find?_insert, h f]
  by_cases hf : k.frame = f
  · subst hf
    simp [Finmap.lookup_insert]
  · simp [hf, Finmap.lookup_insert_of_ne _ (Ne.symm hf)]

theorem remove (h : c.Represents M) (g : Nat) : (c.remove g).2.Represents (M.erase g) := by
  intro f
  rw [Curve.remove, Keyed.find?_erase c.sorted, h f]
  by_cases hf : g = f
  · subst hf
    simp [Finmap.lookup_erase]
  · simp [hf, Finmap.lookup_erase_ne (Ne.symm hf)]

theorem clear (c : Curve) : c.clear.Represents ∅ := represents_empty c.default

theorem foldl_add (h : c.Represents M) (ks : List Keyframe) :
    (ks.foldl Curve.add c).Represents (ks.foldl (fun M k => M.insert k.frame k) M) := by
  induction ks generalizing c M with
  | nil => exact h
  | cons k rest ih => exact ih (h.add k)

theorem setKeys (c : Curve) (ks : List Keyframe) :
    (c.setKeys ks).Represents (KeyMap.ofKeys ks) :=
  (Represents.clear c).foldl_add ks

theorem contains_iff (h : c.Represents M) (f : Nat) : c.contains f = true ↔ f ∈ M := by
  rw [contains_eq_isSome, h f, Finmap.lookup_isSome]

/-- Removing says whether the frame was a key of the map. -/
theorem remove_fst (h : c.Represents M) (g : Nat) : (c.remove g).1 = decide (g ∈ M) := by
  rw [Curve.remove, Bool.eq_iff_iff, h.contains_iff, decide_eq_true_iff]

theorem mem_iff (h : c.Represents M) (k : Keyframe) : k ∈ c.keys ↔ M.lookup k.frame = some k := by
  rw [Keyed.mem_iff_find? c.sorted, h k.frame]

/-- A curve lists the keyframes of the map it represents, in frame order. -/
theorem keys_eq_listing (h : c.Represents M) : c.keys = M.listing := by
  refine Keyed.eq_of_mem_iff c.sorted (KeyMap.listing_sorted h.keyed) fun k => ?_
  rw [h.mem_iff, KeyMap.mem_listing h.keyed]

theorem size_eq (h : c.Represents M) : c.size = M.keys.card := by
  rw [size, h.keys_eq_listing, KeyMap.length_listing]

theorem keys_eq_nil_iff (h : c.Represents M) : c.keys = [] ↔ M = ∅ := by
  constructor
  · intro hc
    refine Finmap.ext_lookup fun f => ?_
    rw [← h f, hc, Finmap.lookup_empty]
    rfl
  · intro hM
    rw [← List.length_eq_zero_iff, ← size, h.size_eq, hM, Finmap.keys_empty, Finset.card_empty]

end Represents

/-! ## Runs of edits -/

/-- An edit of the keyframes of a curve. -/
inductive Edit where
  | add (k : Keyframe)
  | remove (f : Nat)
  | setKeys (ks : List Keyframe)
  | clear

/-- The curve after an edit. -/
def edit (c : Curve) : Edit → Curve
  | .add k => c.add k
  | .remove f => (c.remove f).2
  | .setKeys ks => c.setKeys ks
  | .clear => c.clear

/-- The curve after a run of edits. -/
def edits (c : Curve) (es : List Edit) : Curve := es.foldl edit c

namespace Edit

/-- The map after an edit. -/
def apply : Edit → KeyMap → KeyMap
  | .add k, M => M.insert k.frame k
  | .remove f, M => M.erase f
  | .setKeys ks, _ => KeyMap.ofKeys ks
  | .clear, _ => ∅

/-- The map after a run of edits. -/
def applyAll (M : KeyMap) (es : List Edit) : KeyMap := es.foldl (fun M e => e.apply M) M

end Edit

/-- Setting the keyframes keeps the default, which no step of the fold touches. -/
theorem default_setKeys (c : Curve) (ks : List Keyframe) : (c.setKeys ks).default = c.default := by
  rw [setKeys]
  suffices ∀ c' : Curve, (ks.foldl Curve.add c').default = c'.default from this c.clear
  induction ks with
  | nil => exact fun _ => rfl
  | cons k rest ih => exact fun c' => ih (c'.add k)

theorem default_edit (c : Curve) (e : Edit) : (c.edit e).default = c.default := by
  cases e with
  | add k => rfl
  | remove f => rfl
  | setKeys ks => exact default_setKeys c ks
  | clear => rfl

theorem default_edits (c : Curve) (es : List Edit) : (c.edits es).default = c.default := by
  induction es generalizing c with
  | nil => rfl
  | cons e rest ih => exact (ih (c.edit e)).trans (default_edit c e)

/-- One edit keeps the representation. -/
theorem Represents.edit (h : c.Represents M) (e : Edit) : (c.edit e).Represents (e.apply M) := by
  cases e with
  | add k => exact h.add k
  | remove g => exact h.remove g
  | setKeys ks => exact Represents.setKeys c ks
  | clear => exact Represents.clear c

/-- A run of edits keeps the representation. -/
theorem Represents.edits (h : c.Represents M) (es : List Edit) :
    (c.edits es).Represents (Edit.applyAll M es) := by
  induction es generalizing c M with
  | nil => exact h
  | cons e rest ih => exact ih (h.edit e)

/-- After any run of edits from a curve without keyframes, the keyframes are in strictly
increasing frame order and are the frame-ordered keyframes of the map the same edits build from
the empty map; membership, size and emptiness are the map's, the default is unchanged, and
removing a frame says whether the map has it. -/
theorem edits_agree_with_keyMap (d : Float) (es : List Edit) :
    let c := (empty d).edits es
    let M := Edit.applyAll ∅ es
    Keyed.Sorted (·.frame) c.keys ∧ c.keys = M.listing ∧
      (∀ f, c.contains f = true ↔ f ∈ M) ∧ c.size = M.keys.card ∧ (c.keys = [] ↔ M = ∅) ∧
      c.default = d ∧ ∀ g, (c.remove g).1 = decide (g ∈ M) := by
  intro c M
  have h : c.Represents M := (represents_empty d).edits es
  exact ⟨c.sorted, h.keys_eq_listing, h.contains_iff, h.size_eq, h.keys_eq_nil_iff,
    default_edits (empty d) es, h.remove_fst⟩

end Curve

end RegionTrack

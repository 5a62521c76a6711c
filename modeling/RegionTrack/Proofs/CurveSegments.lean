import RegionTrack.Proofs.CurveEval
import RegionTrack.Proofs.CurveMap
import RegionTrack.Track.Properties

/-!
# The segment a frame falls in

A curve evaluated at frame `f` reads two keyframes only: the last one at or before `f`
(`Curve.atOrBefore?`) and the first one after `f` (`Curve.after?`). Their values, the easing of
the second one and the frame decide the value (`Curve.eval_eq_segmentValue`): the default
without keyframes, the first value before the first keyframe, the last value from the last
keyframe on, a keyframe's value on its frame, and the eased value of their segment otherwise.

Two consequences follow.

* Editing a keyframe changes the curve only on the segments next to it. Two curves whose
  keyframes agree above some frame `m` give the same value at every frame at or after a
  keyframe above `m` (`Curve.eval_eq_of_agree_above`), and symmetrically below
  (`Curve.eval_eq_of_agree_below`). Adding a keyframe on frame `g`, or removing the one there,
  changes keyframes on frame `g` only, so the value stays the same at every frame up to the
  nearest keyframe before `g` and from the nearest keyframe after `g` on
  (`Curve.eval_unchanged_beyond_neighbours`).
* The closest keyframe of a frame, the first at or after it and else the last, is the keyframe
  on the frame when there is one, and otherwise the end of the segment the frame falls in: the
  keyframe whose easing the value uses. A property sheet reports, for each adjustment curve,
  that keyframe's easing and whether a keyframe sits on the frame, next to the value they
  produce (`Curve.closest_keyframe_drives_value`).
-/

namespace RegionTrack

namespace Keyed

variable {α : Type} {key : α → Nat} {xs : List α}

/-- In an ordered list, no key lies strictly between the keys of two consecutive elements. -/
theorem key_le_or_le_of_consecutive (hs : Sorted key xs) {a b : α} (hab : [a, b] <:+: xs) :
    ∀ y ∈ xs, key y ≤ key a ∨ key b ≤ key y := by
  obtain ⟨s, t, rfl⟩ := hab
  obtain ⟨hsab, -, hlt⟩ := List.pairwise_append.1 hs
  obtain ⟨-, -, hlt'⟩ := List.pairwise_append.1 hsab
  intro y hy
  rcases List.mem_append.1 hy with hy | hy
  · rcases List.mem_append.1 hy with hy | hy
    · exact .inl (Nat.le_of_lt (hlt' y hy a (by simp)))
    · rcases List.mem_pair.1 hy with rfl | rfl
      · exact .inl (Nat.le_refl _)
      · exact .inr (Nat.le_refl _)
  · exact .inr (Nat.le_of_lt (hlt b (by simp) y hy))

end Keyed

namespace Curve

/-- The last keyframe at or before frame `f`. -/
def atOrBefore? (c : Curve) (f : Nat) : Option Keyframe := (c.keys.filter (·.frame ≤ f)).getLast?

/-- The first keyframe after frame `f`. -/
def after? (c : Curve) (f : Nat) : Option Keyframe := c.keys.find? (f < ·.frame)

/-- The value at frame `f` of a curve with default `d`, read off `a?`, its last keyframe at or
before `f`, and `b?`, its first keyframe after `f`. -/
def segmentValue (d : Float) (f : Nat) : Option Keyframe → Option Keyframe → Float
  | none, none => d
  | none, some b => b.value
  | some a, none => a.value
  | some a, some b => if a.frame = f then a.value else between a b f

theorem segmentValue_of_frame_eq (d : Float) {f : Nat} {a : Keyframe} (ha : a.frame = f)
    (b? : Option Keyframe) : segmentValue d f (some a) b? = a.value := by
  cases b? with
  | none => rfl
  | some b => exact if_pos ha

variable {c c' : Curve} {f m : Nat}

/-! ## The two keyframes around a frame -/

theorem atOrBefore?_eq_some_iff {a : Keyframe} :
    c.atOrBefore? f = some a ↔
      a ∈ c.keys ∧ a.frame ≤ f ∧ ∀ y ∈ c.keys, y.frame ≤ f → y.frame ≤ a.frame :=
  Keyed.lastLe_eq_some_iff c.sorted f

theorem after?_eq_some_iff {b : Keyframe} :
    c.after? f = some b ↔
      b ∈ c.keys ∧ f < b.frame ∧ ∀ y ∈ c.keys, f < y.frame → b.frame ≤ y.frame :=
  Keyed.find?_ge_eq_some_iff c.sorted (f + 1)

/-- A keyframe on `f` is the last keyframe at or before `f`. -/
theorem atOrBefore?_of_frame_eq {k : Keyframe} (hk : k ∈ c.keys) (hkf : k.frame = f) :
    c.atOrBefore? f = some k :=
  atOrBefore?_eq_some_iff.2 ⟨hk, Nat.le_of_eq hkf, fun _ _ hy => hkf ▸ hy⟩

/-- Consecutive keyframes `a` and `b` around `f` are its two neighbours. -/
theorem neighbours_of_consecutive {a b : Keyframe} (hab : [a, b] <:+: c.keys) (haf : a.frame ≤ f)
    (hfb : f < b.frame) : c.atOrBefore? f = some a ∧ c.after? f = some b := by
  have hgap := Keyed.key_le_or_le_of_consecutive c.sorted hab
  refine ⟨atOrBefore?_eq_some_iff.2 ⟨hab.subset (by simp), haf, fun y hy hyf => ?_⟩,
    after?_eq_some_iff.2 ⟨hab.subset (by simp), hfb, fun y hy hfy => ?_⟩⟩
  · rcases hgap y hy with h | h
    · exact h
    · omega
  · rcases hgap y hy with h | h
    · omega
    · exact h

/-! ## The value read off the two keyframes -/

/-- No keyframe of an ordered list lies at or before a frame before its first keyframe. -/
theorem filter_le_eq_nil {k : Keyframe} {rest : List Keyframe}
    (hs : Keyed.Sorted (·.frame) (k :: rest)) (hfk : f < k.frame) :
    (k :: rest).filter (·.frame ≤ f) = [] := by
  refine List.filter_eq_nil_iff.2 fun y hy => ?_
  have := Keyed.key_le_of_head? hs rfl hy
  simp only [decide_eq_true_eq]
  omega

/-- Walking from a keyframe at or before `f`, the value is read off the last keyframe at or
before `f` and the first one after it. A keyframe passed over is never the last one at or
before `f`. -/
theorem valueFrom_eq_segmentValue (d : Float) {a : Keyframe} {rest : List Keyframe}
    (hs : Keyed.Sorted (·.frame) (a :: rest)) (ha : a.frame ≤ f) :
    valueFrom f a rest =
      segmentValue d f (((a :: rest).filter (·.frame ≤ f)).getLast?)
        ((a :: rest).find? (f < ·.frame)) := by
  induction rest generalizing a with
  | nil => simp [valueFrom, segmentValue, ha]
  | cons b rest ih =>
    have hsb : Keyed.Sorted (·.frame) (b :: rest) := List.Pairwise.of_cons hs
    simp only [valueFrom]
    split
    next hfb =>
      rw [List.filter_cons_of_pos (by simpa using ha), filter_le_eq_nil hsb hfb,
        List.find?_cons_of_neg (by simpa using ha), List.find?_cons_of_pos (by simpa using hfb)]
      rfl
    next hbf =>
      have hbf : b.frame ≤ f := Nat.le_of_not_lt hbf
      have ih := ih hsb hbf
      rw [List.filter_cons_of_pos (by simpa using hbf)] at ih
      rwa [List.filter_cons_of_pos (by simpa using ha),
        List.filter_cons_of_pos (by simpa using hbf), List.getLast?_cons_cons,
        List.find?_cons_of_neg (by simpa using ha)]

/-- **The value at a frame is read off its two neighbours**: the last keyframe at or before it
and the first one after it. -/
theorem eval_eq_segmentValue (c : Curve) (f : Nat) :
    c.eval f = segmentValue c.default f (c.atOrBefore? f) (c.after? f) := by
  have hs := c.sorted
  unfold eval atOrBefore? after?
  split
  next hnil => simp [hnil, segmentValue]
  next k rest hkeys =>
    rw [hkeys] at hs ⊢
    split
    next hfk =>
      rw [filter_le_eq_nil hs hfk, List.find?_cons_of_pos (by simpa using hfk)]
      rfl
    next hkf => exact valueFrom_eq_segmentValue c.default hs (Nat.le_of_not_lt hkf)

/-! ## Locality -/

/-- Curves whose keyframes agree at or before `f` have the same last keyframe at or before `f`. -/
theorem atOrBefore?_eq_of_agree
    (hagree : ∀ y : Keyframe, y.frame ≤ f → (y ∈ c.keys ↔ y ∈ c'.keys)) :
    c.atOrBefore? f = c'.atOrBefore? f := by
  refine Option.ext fun a => ?_
  simp only [atOrBefore?_eq_some_iff]
  constructor
  · rintro ⟨ha, haf, hmax⟩
    exact ⟨(hagree a haf).1 ha, haf, fun y hy hyf => hmax y ((hagree y hyf).2 hy) hyf⟩
  · rintro ⟨ha, haf, hmax⟩
    exact ⟨(hagree a haf).2 ha, haf, fun y hy hyf => hmax y ((hagree y hyf).1 hy) hyf⟩

/-- Curves whose keyframes agree after `f` have the same first keyframe after `f`. -/
theorem after?_eq_of_agree (hagree : ∀ y : Keyframe, f < y.frame → (y ∈ c.keys ↔ y ∈ c'.keys)) :
    c.after? f = c'.after? f := by
  refine Option.ext fun b => ?_
  simp only [after?_eq_some_iff]
  constructor
  · rintro ⟨hb, hfb, hmin⟩
    exact ⟨(hagree b hfb).1 hb, hfb, fun y hy hfy => hmin y ((hagree y hfy).2 hy) hfy⟩
  · rintro ⟨hb, hfb, hmin⟩
    exact ⟨(hagree b hfb).2 hb, hfb, fun y hy hfy => hmin y ((hagree y hfy).1 hy) hfy⟩

/-- The last keyframe at or before `f` is found among the keyframes from frame `m` on, when one
of them is at or before `f`: both searches end at a keyframe from `m` on, where the two curves
agree. -/
theorem atOrBefore?_eq_of_agree_from
    (hagree : ∀ y : Keyframe, m ≤ y.frame → (y ∈ c.keys ↔ y ∈ c'.keys)) {k : Keyframe}
    (hk : k ∈ c.keys) (hmk : m ≤ k.frame) (hkf : k.frame ≤ f) :
    c.atOrBefore? f = c'.atOrBefore? f := by
  have hk' : k ∈ c'.keys := (hagree k hmk).1 hk
  have one : ∀ {c c' : Curve}, (∀ y : Keyframe, m ≤ y.frame → (y ∈ c.keys ↔ y ∈ c'.keys)) →
      k ∈ c.keys → ∀ a, c.atOrBefore? f = some a → c'.atOrBefore? f = some a := by
    intro c c' hagree hk a ha
    obtain ⟨ha, haf, hmax⟩ := atOrBefore?_eq_some_iff.1 ha
    have hma : m ≤ a.frame := Nat.le_trans hmk (hmax k hk hkf)
    refine atOrBefore?_eq_some_iff.2 ⟨(hagree a hma).1 ha, haf, fun y hy hyf => ?_⟩
    by_cases hmy : m ≤ y.frame
    · exact hmax y ((hagree y hmy).2 hy) hyf
    · omega
  refine Option.ext fun a => ⟨one hagree hk a, one (fun y hy => (hagree y hy).symm) hk' a⟩

/-- The first keyframe after `f` is found among the keyframes before frame `m`, when one of them
is after `f`. -/
theorem after?_eq_of_agree_below
    (hagree : ∀ y : Keyframe, y.frame < m → (y ∈ c.keys ↔ y ∈ c'.keys)) {k : Keyframe}
    (hk : k ∈ c.keys) (hkm : k.frame < m) (hfk : f < k.frame) :
    c.after? f = c'.after? f := by
  have hk' : k ∈ c'.keys := (hagree k hkm).1 hk
  have one : ∀ {c c' : Curve}, (∀ y : Keyframe, y.frame < m → (y ∈ c.keys ↔ y ∈ c'.keys)) →
      k ∈ c.keys → ∀ b, c.after? f = some b → c'.after? f = some b := by
    intro c c' hagree hk b hb
    obtain ⟨hb, hfb, hmin⟩ := after?_eq_some_iff.1 hb
    have hbm : b.frame < m := Nat.lt_of_le_of_lt (hmin k hk hfk) hkm
    refine after?_eq_some_iff.2 ⟨(hagree b hbm).1 hb, hfb, fun y hy hfy => ?_⟩
    by_cases hym : y.frame < m
    · exact hmin y ((hagree y hym).2 hy) hfy
    · omega
  refine Option.ext fun b => ⟨one hagree hk b, one (fun y hy => (hagree y hy).symm) hk' b⟩

/-- **Keyframes below `m` do not matter from a keyframe above `m` on.** Two curves with one
default whose keyframes agree from frame `m` on have the same value at every frame at or after
a keyframe from `m` on. -/
theorem eval_eq_of_agree_above
    (hagree : ∀ y : Keyframe, m ≤ y.frame → (y ∈ c.keys ↔ y ∈ c'.keys)) {k : Keyframe}
    (hk : k ∈ c.keys) (hmk : m ≤ k.frame) (hkf : k.frame ≤ f) (hd : c.default = c'.default) :
    c.eval f = c'.eval f := by
  rw [eval_eq_segmentValue, eval_eq_segmentValue, hd,
    atOrBefore?_eq_of_agree_from hagree hk hmk hkf,
    after?_eq_of_agree fun y hy => hagree y (by omega)]

/-- **Keyframes from `m` on do not matter up to a keyframe below `m`.** Two curves with one
default whose keyframes agree below frame `m` have the same value at every frame at or before a
keyframe below `m`. -/
theorem eval_eq_of_agree_below
    (hagree : ∀ y : Keyframe, y.frame < m → (y ∈ c.keys ↔ y ∈ c'.keys)) {k : Keyframe}
    (hk : k ∈ c.keys) (hkm : k.frame < m) (hfk : f ≤ k.frame) (hd : c.default = c'.default) :
    c.eval f = c'.eval f := by
  have hbefore : c.atOrBefore? f = c'.atOrBefore? f :=
    atOrBefore?_eq_of_agree fun y hy => hagree y (by omega)
  rw [eval_eq_segmentValue, eval_eq_segmentValue, hd, hbefore]
  rcases Nat.lt_or_eq_of_le hfk with hfk | rfl
  · rw [after?_eq_of_agree_below hagree hk hkm hfk]
  · rw [← hbefore, atOrBefore?_of_frame_eq hk rfl, segmentValue_of_frame_eq _ rfl,
      segmentValue_of_frame_eq _ rfl]

/-! ## Edits of one keyframe -/

theorem mem_add {p y : Keyframe} :
    y ∈ (c.add p).keys ↔ y = p ∨ (y ∈ c.keys ∧ y.frame ≠ p.frame) := by
  rw [Keyed.mem_iff_find? (c.add p).sorted, add, Keyed.find?_insert, Keyed.mem_iff_find? c.sorted]
  by_cases h : p.frame = y.frame
  · simp only [h, if_true, Option.some.injEq, ne_eq, not_true_eq_false, and_false, or_false]
    exact eq_comm
  · simp only [h, if_false]
    constructor
    · intro hy
      exact .inr ⟨hy, Ne.symm h⟩
    · rintro (rfl | ⟨hy, -⟩)
      · exact absurd rfl h
      · exact hy

theorem mem_remove {g : Nat} {y : Keyframe} :
    y ∈ (c.remove g).2.keys ↔ y ∈ c.keys ∧ y.frame ≠ g := by
  rw [Keyed.mem_iff_find? (c.remove g).2.sorted, remove, Keyed.find?_erase c.sorted,
    Keyed.mem_iff_find? c.sorted]
  by_cases h : g = y.frame
  · simp [h]
  · simp [h, Ne.symm h]

/-- Curves with one default whose keyframes differ on frame `g` only have the same value at
every frame at or before a keyframe before `g`, and at or after a keyframe after `g`. -/
theorem eval_eq_beyond_neighbours {g : Nat}
    (hagree : ∀ y : Keyframe, y.frame ≠ g → (y ∈ c.keys ↔ y ∈ c'.keys))
    (hd : c.default = c'.default)
    (h : (∃ l ∈ c.keys, l.frame < g ∧ f ≤ l.frame) ∨ (∃ r ∈ c.keys, g < r.frame ∧ r.frame ≤ f)) :
    c.eval f = c'.eval f := by
  rcases h with ⟨l, hl, hlg, hfl⟩ | ⟨r, hr, hgr, hrf⟩
  · exact eval_eq_of_agree_below (fun y hy => hagree y (by omega)) hl hlg hfl hd
  · exact eval_eq_of_agree_above (m := g + 1) (fun y hy => hagree y (by omega)) hr hgr hrf hd

/-- **An edit of one keyframe reaches only the segments next to it.** Adding a keyframe `p`
leaves the value unchanged at every frame at or before a keyframe before `p`'s frame and at or
after a keyframe after it: everywhere but strictly between the neighbours of `p`'s frame.
Removing frame `g` leaves the value unchanged everywhere but strictly between the neighbours of
`g`. -/
theorem eval_unchanged_beyond_neighbours (c : Curve) :
    (∀ (p : Keyframe) (f : Nat),
      (∃ l ∈ c.keys, l.frame < p.frame ∧ f ≤ l.frame) ∨
        (∃ r ∈ c.keys, p.frame < r.frame ∧ r.frame ≤ f) →
      (c.add p).eval f = c.eval f) ∧
    (∀ g f : Nat,
      (∃ l ∈ c.keys, l.frame < g ∧ f ≤ l.frame) ∨ (∃ r ∈ c.keys, g < r.frame ∧ r.frame ≤ f) →
      (c.remove g).2.eval f = c.eval f) := by
  refine ⟨fun p f h => ?_, fun g f h => ?_⟩
  · have hagree : ∀ y : Keyframe, y.frame ≠ p.frame → (y ∈ c.keys ↔ y ∈ (c.add p).keys) := by
      intro y hy
      rw [mem_add]
      exact ⟨fun h => .inr ⟨h, hy⟩, fun h => h.elim (fun h => absurd (h ▸ rfl) hy) And.left⟩
    exact (eval_eq_beyond_neighbours hagree rfl h).symm
  · have hagree : ∀ y : Keyframe, y.frame ≠ g → (y ∈ c.keys ↔ y ∈ (c.remove g).2.keys) := by
      intro y hy
      rw [mem_remove]
      exact ⟨fun h => ⟨h, hy⟩, And.left⟩
    exact (eval_eq_beyond_neighbours hagree rfl h).symm

/-! ## The closest keyframe -/

theorem closest?_eq_some_iff {k : Keyframe} :
    c.closest? f = some k ↔
      (k ∈ c.keys ∧ f ≤ k.frame ∧ ∀ y ∈ c.keys, f ≤ y.frame → k.frame ≤ y.frame) ∨
        ((∀ y ∈ c.keys, y.frame < f) ∧ c.keys.getLast? = some k) := by
  rw [closest?, Option.or_eq_some_iff, Keyed.find?_ge_eq_some_iff c.sorted,
    Keyed.find?_ge_eq_none_iff]

theorem closest?_eq_none_iff : c.closest? f = none ↔ c.keys = [] := by
  rw [closest?, Option.or_eq_none_iff, List.getLast?_eq_none_iff]
  constructor
  · exact And.right
  · intro h
    rw [h]
    exact ⟨rfl, rfl⟩

theorem contains_iff_exists : c.contains f = true ↔ ∃ k ∈ c.keys, k.frame = f := by
  simp [contains]

/-- A keyframe on `f` is the closest keyframe of `f`. -/
theorem closest?_of_frame_eq {k : Keyframe} (hk : k ∈ c.keys) (hkf : k.frame = f) :
    c.closest? f = some k :=
  closest?_eq_some_iff.2 (.inl ⟨hk, Nat.le_of_eq hkf.symm, fun _ _ hy => hkf ▸ hy⟩)

/-- Strictly inside the segment from `a` to `b`, the closest keyframe is `b`, whose easing the
value uses; a keyframe on `f` itself would lie strictly between `a` and `b`. -/
theorem closest?_of_consecutive {a b : Keyframe} (hab : [a, b] <:+: c.keys) (haf : a.frame < f)
    (hfb : f < b.frame) : c.closest? f = some b := by
  obtain ⟨hb, -, hmin⟩ :=
    after?_eq_some_iff.1 (neighbours_of_consecutive hab (Nat.le_of_lt haf) hfb).2
  refine closest?_eq_some_iff.2 (.inl ⟨hb, Nat.le_of_lt hfb, fun y hy hfy => ?_⟩)
  rcases Keyed.key_le_or_le_of_consecutive c.sorted hab y hy with h | h
  · omega
  · exact h

theorem contains_of_consecutive {a b : Keyframe} (hab : [a, b] <:+: c.keys) (haf : a.frame < f)
    (hfb : f < b.frame) : c.contains f = false := by
  refine Bool.eq_false_iff.2 fun h => ?_
  obtain ⟨k, hk, rfl⟩ := contains_iff_exists.1 h
  rcases Keyed.key_le_or_le_of_consecutive c.sorted hab k hk with h | h <;> omega

theorem eval_of_consecutive {a b : Keyframe} (hab : [a, b] <:+: c.keys) (haf : a.frame < f)
    (hfb : f < b.frame) : c.eval f = between a b f := by
  obtain ⟨ha, hb⟩ := neighbours_of_consecutive hab (Nat.le_of_lt haf) hfb
  rw [eval_eq_segmentValue, ha, hb]
  exact if_neg (Nat.ne_of_lt haf)

theorem eval_of_frame_eq {k : Keyframe} (hk : k ∈ c.keys) (hkf : k.frame = f) :
    c.eval f = k.value := by
  rw [eval_eq_segmentValue, atOrBefore?_of_frame_eq hk hkf, segmentValue_of_frame_eq _ hkf]

end Curve

namespace Track

/-- The property sheet lists each adjustment curve under its channel's name, described at the
frame by its value, the easing of its closest keyframe and whether a keyframe sits there. -/
theorem lookup_properties_channel (t : Track) (f : Nat) (ch : Channel) :
    (t.properties f).lookup ch.name =
      some (Property.ofCurve ch.describe.1 ch.describe.2.1 (t.adjustments.curve ch)
        ch.describe.2.2.1 ch.describe.2.2.2 f) := by
  cases ch <;> simp [properties, Channel.all, Channel.name, Channel.describe, List.lookup]

end Track

namespace Curve

/-- **The closest keyframe names the segment the value comes from.** The closest keyframe of a
frame is the first keyframe at or after it, else the last keyframe, else none. Strictly inside
the segment from `a` to `b` it is `b`, whose easing gives the value there, and no keyframe sits
on the frame; on a keyframe it is that keyframe, whose value is the value. So the property
sheet of a track describes each adjustment curve at a frame by the easing and the keyframe test
that produce the value it reports. -/
theorem closest_keyframe_drives_value (f : Nat) :
    (∀ c : Curve,
      (∀ k, c.closest? f = some k ↔
        (k ∈ c.keys ∧ f ≤ k.frame ∧ ∀ y ∈ c.keys, f ≤ y.frame → k.frame ≤ y.frame) ∨
          ((∀ y ∈ c.keys, y.frame < f) ∧ c.keys.getLast? = some k)) ∧
      (c.closest? f = none ↔ c.keys = []) ∧
      (∀ a b, [a, b] <:+: c.keys → a.frame < f → f < b.frame →
        c.closest? f = some b ∧ c.contains f = false ∧
        c.eval f = a.value + (b.value - a.value) *
          b.easing.apply (Float.ofNat (f - a.frame) / Float.ofNat (b.frame - a.frame))) ∧
      (∀ k ∈ c.keys, k.frame = f →
        c.closest? f = some k ∧ c.contains f = true ∧ c.eval f = k.value)) ∧
    (∀ (t : Track) (ch : Channel), ∃ p, (t.properties f).lookup ch.name = some p ∧
      p.value = .ofFloat ((t.adjustments.curve ch).eval f) ∧
      (∀ a b, [a, b] <:+: (t.adjustments.curve ch).keys → a.frame < f → f < b.frame →
        p.easing = some b.easing ∧ p.keyframe = false) ∧
      (∀ k ∈ (t.adjustments.curve ch).keys, k.frame = f →
        p.easing = some k.easing ∧ p.keyframe = true)) := by
  refine ⟨fun c => ⟨fun k => closest?_eq_some_iff, closest?_eq_none_iff,
    fun a b hab haf hfb =>
      ⟨closest?_of_consecutive hab haf hfb, contains_of_consecutive hab haf hfb,
      eval_of_consecutive hab haf hfb⟩,
    fun k hk hkf => ⟨closest?_of_frame_eq hk hkf, contains_iff_exists.2 ⟨k, hk, hkf⟩,
      eval_of_frame_eq hk hkf⟩⟩, fun t ch => ?_⟩
  refine ⟨_, Track.lookup_properties_channel t f ch, rfl, fun a b hab haf hfb => ?_,
    fun k hk hkf => ?_⟩
  · simp only [Property.ofCurve, closest?_of_consecutive hab haf hfb,
      contains_of_consecutive hab haf hfb, Option.map_some, and_self]
  · simp only [Property.ofCurve, closest?_of_frame_eq hk hkf,
      contains_iff_exists.2 ⟨k, hk, hkf⟩, Option.map_some, and_self]

end Curve

end RegionTrack

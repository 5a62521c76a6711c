import RegionTrack.Track
import RegionTrack.Proofs.TimelineMap

/-!
# The rectangle a track gives at a frame

Frame `f` of a track reads the recorded samples at the query time `f × (den / num) × scale`,
computed at the track's own rate `num / den` and time scale. With nothing recorded the
rectangle is `Rect.unset`, whatever the adjustments hold. Otherwise it is a base rectangle with
the adjustments of the clip frame `f` (not of the query time) applied, and the base is read off
the samples around the key of the query time: the sample on that key, the earliest sample when
the key is below every stored one, the latest when it is above every stored one, and the linear
mix of the two neighbours when it falls between them.

Where a time falls is decided by `Timeline.bracket`; its lemmas here say what it finds in each
of these situations, stated over the stored samples `tl.toList`.

## Main results

* `Timeline.bracket_of_nil`, `Timeline.bracket_of_mem`, `Timeline.bracket_of_lt_all`,
  `Timeline.bracket_of_all_lt`, `Timeline.bracket_of_between`: where a time falls
* `Timeline.bracket_eq_empty_iff`: a time finds nothing exactly when nothing is stored
* `Track.rectAt_cases`: the rectangle at every frame of every track
-/

namespace RegionTrack

namespace Timeline

variable (tl : Timeline) (t : Float)

/-- A stored sample whose time has the key of `t` is the rectangle stored under `t`. -/
theorem get?_eq_some_of_mem {x : Float} {r : Rect} (hx : (x, r) ∈ tl.toList)
    (hk : TimeKey.rank x = rankOf t) : tl.get? t = some r := by
  obtain ⟨⟨k, r'⟩, he, hkr⟩ := List.mem_map.1 hx
  obtain ⟨rfl, rfl⟩ := Prod.mk.inj hkr
  have hrank : entryRank (k, r') = rankOf t := hk
  rw [get?, ← hrank, Keyed.find?_of_mem tl.sorted he]
  rfl

theorem get?_eq_none_iff :
    tl.get? t = none ↔ ∀ e ∈ tl.toList, TimeKey.rank e.1 ≠ rankOf t := by
  rw [get?, Option.map_eq_none_iff, Keyed.find?, List.find?_eq_none, toList, List.forall_mem_map]
  exact forall₂_congr fun _ _ => by rw [decide_eq_true_iff]; rfl

/-- Nothing is found in a timeline without samples. -/
theorem bracket_of_nil (h : tl.toList = []) : tl.bracket t = .empty := by
  have hg : tl.get? t = none := (get?_eq_none_iff tl t).2 (by simp [h])
  simp only [bracket, hg, atOrBefore?, atOrAfter?, h, List.filter_nil, List.getLast?_nil,
    List.find?_nil]

/-- A time that finds nothing has no stored key at or below it and none at or above it: every
other outcome of the two searches is a clamped or a between bracket. -/
theorem neighbours_of_bracket_eq_empty (h : tl.bracket t = .empty) :
    tl.atOrBefore? t = none ∧ tl.atOrAfter? t = none := by
  rw [bracket] at h
  cases hg : tl.get? t with
  | some r => rw [hg] at h; cases h
  | none =>
    rw [hg] at h
    cases hb : tl.atOrBefore? t with
    | none =>
      cases ha : tl.atOrAfter? t with
      | none => exact ⟨rfl, rfl⟩
      | some e => rw [hb, ha] at h; cases h
    | some e =>
      cases ha : tl.atOrAfter? t with
      | none => rw [hb, ha] at h; cases h
      | some e' => rw [hb, ha] at h; cases h

/-- A time finds nothing exactly when nothing is stored, since a stored sample would be both
above and below the time's key. -/
theorem bracket_eq_empty_iff : tl.bracket t = .empty ↔ tl.toList = [] := by
  refine ⟨fun h => ?_, bracket_of_nil tl t⟩
  obtain ⟨hb, ha⟩ := neighbours_of_bracket_eq_empty tl t h
  rw [atOrBefore?, Keyed.lastLe_eq_none_iff] at hb
  rw [atOrAfter?, Keyed.find?_ge_eq_none_iff] at ha
  refine List.eq_nil_iff_forall_not_mem.2 fun e he => ?_
  exact Nat.lt_asymm (hb e he) (ha e he)

theorem toList_eq_nil_iff : tl.toList = [] ↔ tl.isEmpty = true := by
  rw [toList, List.map_eq_nil_iff, isEmpty, List.isEmpty_iff]

/-- A time on a stored key finds the sample stored there. -/
theorem bracket_of_mem {x : Float} {r : Rect} (hx : (x, r) ∈ tl.toList)
    (hk : TimeKey.rank x = rankOf t) : tl.bracket t = .exact r := by
  simp only [bracket, get?_eq_some_of_mem tl t hx hk]

/-- A time below every stored key finds the earliest sample. -/
theorem bracket_of_lt_all {x : Float} {r : Rect} (hx : (x, r) ∈ tl.toList)
    (hlt : ∀ e ∈ tl.toList, rankOf t < TimeKey.rank e.1)
    (hmin : ∀ e ∈ tl.toList, TimeKey.rank x ≤ TimeKey.rank e.1) : tl.bracket t = .clamped r := by
  have hg : tl.get? t = none := (get?_eq_none_iff tl t).2 fun e he => Nat.ne_of_gt (hlt e he)
  have hb : tl.atOrBefore? t = none := by
    rw [atOrBefore?]
    exact (Keyed.lastLe_eq_none_iff _).2 hlt
  have ha : tl.atOrAfter? t = some (x, r) := by
    rw [atOrAfter?]
    exact (Keyed.find?_ge_eq_some_iff tl.toList_sorted _).2
      ⟨hx, Nat.le_of_lt (hlt _ hx), fun e he _ => hmin e he⟩
  rw [bracket, hg, hb, ha]

/-- A time above every stored key finds the latest sample. -/
theorem bracket_of_all_lt {x : Float} {r : Rect} (hx : (x, r) ∈ tl.toList)
    (hgt : ∀ e ∈ tl.toList, TimeKey.rank e.1 < rankOf t)
    (hmax : ∀ e ∈ tl.toList, TimeKey.rank e.1 ≤ TimeKey.rank x) : tl.bracket t = .clamped r := by
  have hg : tl.get? t = none := (get?_eq_none_iff tl t).2 fun e he => Nat.ne_of_lt (hgt e he)
  have hb : tl.atOrBefore? t = some (x, r) := by
    rw [atOrBefore?]
    exact (Keyed.lastLe_eq_some_iff tl.toList_sorted _).2
      ⟨hx, Nat.le_of_lt (hgt _ hx), fun e he _ => hmax e he⟩
  have ha : tl.atOrAfter? t = none := by
    rw [atOrAfter?]
    exact (Keyed.find?_ge_eq_none_iff _).2 hgt
  rw [bracket, hg, hb, ha]

/-- A time strictly between two stored keys with none in between finds those two samples. -/
theorem bracket_of_between {t1 t2 : Float} {left right : Rect} (h1 : (t1, left) ∈ tl.toList)
    (h2 : (t2, right) ∈ tl.toList) (hlt1 : TimeKey.rank t1 < rankOf t)
    (hlt2 : rankOf t < TimeKey.rank t2)
    (hgap : ∀ e ∈ tl.toList, TimeKey.rank e.1 ≤ TimeKey.rank t1 ∨ TimeKey.rank t2 ≤ TimeKey.rank e.1) :
    tl.bracket t = .between t1 left t2 right := by
  have hg : tl.get? t = none := by
    refine (get?_eq_none_iff tl t).2 fun e he => ?_
    rcases hgap e he with h | h <;> omega
  have hb : tl.atOrBefore? t = some (t1, left) := by
    rw [atOrBefore?]
    refine (Keyed.lastLe_eq_some_iff tl.toList_sorted _).2 ⟨h1, Nat.le_of_lt hlt1, ?_⟩
    intro e he hle
    rcases hgap e he with h | h <;> omega
  have ha : tl.atOrAfter? t = some (t2, right) := by
    rw [atOrAfter?]
    refine (Keyed.find?_ge_eq_some_iff tl.toList_sorted _).2 ⟨h2, Nat.le_of_lt hlt2, ?_⟩
    intro e he hge
    rcases hgap e he with h | h <;> omega
  rw [bracket, hg, hb, ha]

end Timeline

theorem Bracket.resolve_eq_none_iff (b : Bracket) (target : Float) :
    b.resolve target = none ↔ b = .empty := by
  cases b <;> simp [Bracket.resolve]

namespace Track

/-- The query time of a frame, written out. -/
theorem queryTime_eq (t : Track) (f : Nat) :
    t.queryTime f =
      Float.ofNat f * (Float.ofNat t.rate.den / Float.ofNat t.rate.num) * t.scale.value :=
  rfl

/-- The rectangle at a frame is the adjusted base rectangle the bracket of its query time
resolves to. -/
theorem rectAt_of_resolve {t : Track} {f : Nat} {r : Rect}
    (h : (t.samples.bracket (t.queryTime f)).resolve (t.queryTime f) = some r) :
    t.rectAt f = t.adjustments.apply r f := by
  rw [rectAt, baseRect?, h]

/-- **The rectangle at a frame.** Let `target` be the query time of frame `f`, at the track's
own rate and scale. Without samples the rectangle is `Rect.unset`. Otherwise it is the base
rectangle with the adjustments of frame `f` applied, the base being the sample on the key of
`target`, the earliest sample when `target` is below every stored key, the latest when it is
above every stored key, and the linear mix at `target` of its two neighbours otherwise. -/
theorem rectAt_cases (t : Track) (f : Nat) :
    let target :=
      Float.ofNat f * (Float.ofNat t.rate.den / Float.ofNat t.rate.num) * t.scale.value
    let samples := t.samples.toList
    (samples = [] → t.rectAt f = Rect.unset) ∧
    (∀ x r, (x, r) ∈ samples → TimeKey.rank x = Timeline.rankOf target →
      t.rectAt f = t.adjustments.apply r f) ∧
    (∀ x r, (x, r) ∈ samples → (∀ e ∈ samples, Timeline.rankOf target < TimeKey.rank e.1) →
      (∀ e ∈ samples, TimeKey.rank x ≤ TimeKey.rank e.1) →
      t.rectAt f = t.adjustments.apply r f) ∧
    (∀ x r, (x, r) ∈ samples → (∀ e ∈ samples, TimeKey.rank e.1 < Timeline.rankOf target) →
      (∀ e ∈ samples, TimeKey.rank e.1 ≤ TimeKey.rank x) →
      t.rectAt f = t.adjustments.apply r f) ∧
    (∀ t1 left t2 right, (t1, left) ∈ samples → (t2, right) ∈ samples →
      TimeKey.rank t1 < Timeline.rankOf target → Timeline.rankOf target < TimeKey.rank t2 →
      (∀ e ∈ samples,
        TimeKey.rank e.1 ≤ TimeKey.rank t1 ∨ TimeKey.rank t2 ≤ TimeKey.rank e.1) →
      t.rectAt f = t.adjustments.apply (Rect.between t1 t2 left right target) f) := by
  intro target samples
  have htarget : t.queryTime f = target := queryTime_eq t f
  refine ⟨fun h => ?empty, fun x r hx hk => ?exact, fun x r hx hlt hmin => ?below,
    fun x r hx hgt hmax => ?above, fun t1 left t2 right h1 h2 hlt1 hlt2 hgap => ?between⟩
  case empty =>
    rw [rectAt, baseRect?, htarget, Timeline.bracket_of_nil _ _ h]
    rfl
  case exact =>
    apply rectAt_of_resolve
    rw [htarget, Timeline.bracket_of_mem _ _ hx hk]
    rfl
  case below =>
    apply rectAt_of_resolve
    rw [htarget, Timeline.bracket_of_lt_all _ _ hx hlt hmin]
    rfl
  case above =>
    apply rectAt_of_resolve
    rw [htarget, Timeline.bracket_of_all_lt _ _ hx hgt hmax]
    rfl
  case between =>
    apply rectAt_of_resolve
    rw [htarget, Timeline.bracket_of_between _ _ h1 h2 hlt1 hlt2 hgap]
    rfl

end Track

end RegionTrack

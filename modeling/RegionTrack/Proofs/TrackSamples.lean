import RegionTrack.Proofs.TrackLoad
import RegionTrack.Proofs.TimelineMap
import RegionTrack.Proofs.CurveMap

/-!
# The samples of a track as a finite map

The samples of a track are a finite map from stored times to rectangles (`Timeline.toMap`). The
sample of frame `f` is stored under the key of its recorded time `f × (den / num)`, at the rate
the track has when the sample is added (`Track.sampleKey`): adding sets that key, replacing what
any frame stored there, removing erases it, clearing empties the map, and the membership test
and the count are those of the map. These three operations touch nothing else, and every other
operation of a track leaves the samples alone, a refused one included.

At time scale `1` a query reads the samples at the recorded time itself, so a frame that has a
sample finds it on its own key, and a rectangle just added is the one read back.

## Main definitions

* `Timeline.toMap`: the map a timeline holds
* `Track.sampleKey`: the key of the sample of a frame
* `Track.Op`, `Track.step`, `Track.Op.onSamples`: the operations of a track, and what they do to
  the map of samples

## Main results

* `Track.toMap_step`: each operation acts on the map of samples as `Op.onSamples` says
* `Track.samples_step`: operations that do not edit samples keep them
* `Track.samples_are_keyed_by_recorded_time`: the whole contract
-/

namespace RegionTrack

namespace Timeline

/-- The finite map a timeline holds: each stored time with its rectangle. -/
def toMap (tl : Timeline) : SampleMap :=
  tl.entries.foldr (fun e M => M.insert e.1.secs e.2) ∅

theorem lookup_foldr_insert (es : List (TimeKey × Rect)) (x : Float) :
    (es.foldr (fun e M => M.insert e.1.secs e.2) (∅ : SampleMap)).lookup x =
      (Keyed.find? entryRank (TimeKey.rank x) es).map (·.2) := by
  induction es with
  | nil => simp [Keyed.find?, Finmap.lookup_empty]
  | cons e rest ih =>
    rw [List.foldr_cons]
    by_cases hx : e.1.secs = x
    · subst hx
      simp [Finmap.lookup_insert, Keyed.find?, entryRank]
    · have hr : entryRank e ≠ TimeKey.rank x := fun hr => hx (TimeKey.rank_eq_iff.1 hr)
      rw [Finmap.lookup_insert_of_ne _ (Ne.symm hx), ih]
      simp [Keyed.find?, hr]

theorem Keyed.erase_of_find?_eq_none {α : Type} {key : α → Nat} {n : Nat} {xs : List α}
    (h : Keyed.find? key n xs = none) : Keyed.erase key n xs = xs := by
  induction xs with
  | nil => rfl
  | cons y rest ih =>
    rw [Keyed.find?, List.find?_eq_none] at h
    have hy : key y ≠ n := by simpa using h y List.mem_cons_self
    have hrest : Keyed.find? key n rest = none := by
      rw [Keyed.find?, List.find?_eq_none]
      exact fun z hz => h z (List.mem_cons_of_mem y hz)
    rw [Keyed.erase, if_neg hy, ih hrest]

/-- Removing a time that has no entry changes nothing. -/
theorem remove_of_get?_eq_none {tl : Timeline} {t : Float} (h : tl.get? t = none) :
    (tl.remove t).2 = tl := by
  obtain ⟨es, hs⟩ := tl
  simp only [Timeline.remove, Timeline.mk.injEq]
  exact Keyed.erase_of_find?_eq_none (Option.map_eq_none_iff.1 h)

/-- A timeline holds the map of its entries. -/
theorem represents_toMap (tl : Timeline) : tl.Represents tl.toMap :=
  fun x => (lookup_foldr_insert tl.entries x).symm

/-- A timeline holds one map only. -/
theorem Represents.toMap_eq {tl : Timeline} {M : SampleMap} (h : tl.Represents M) :
    tl.toMap = M :=
  Finmap.ext_lookup fun x => by rw [← h x, ← represents_toMap tl x]

end Timeline

/-! ## Metadata leaves samples alone -/

theorem MemberEffect.samples_eq {t t' : Track} {key : MetadataKey} {w : Json.Value}
    (h : MemberEffect t key w t') : t'.samples = t.samples := by
  cases h <;> rfl

theorem AppliedAll.samples_eq {t t' : Track} {kvs : List (MetadataKey × Json.Value)}
    (h : AppliedAll t kvs t') : t'.samples = t.samples := by
  induction h with
  | nil => rfl
  | cons h _ ih => exact ih.trans (MemberEffect.samples_eq h)

theorem PatchOutcome.samples_eq {t : Track} {kvs : List (MetadataKey × Json.Value)}
    {r : Track × Except TrackError Unit} (h : PatchOutcome t kvs r) : r.1.samples = t.samples := by
  cases h with
  | applied h => exact AppliedAll.samples_eq h
  | refused h _ => exact AppliedAll.samples_eq h

namespace Track

/-- The key under which the sample of frame `f` is stored: its recorded time plus `0.0`. -/
def sampleKey (t : Track) (f : Nat) : Float := (TimeKey.ofTime (t.recordedTime f)).secs

/-- The operations of a track that change it. -/
inductive Op where
  | setId (id : String)
  | setVisible (visible : Bool)
  | setRate (num den : Nat)
  | setScale (x : Float)
  | addRect (f : Nat) (r : Rect)
  | removeRect (f : Nat)
  | clear
  | patch (v : Json.Value)
  | patchText (text : String)
  | editCurve (ch : Channel) (e : Curve.Edit)
  | load (path : String) (source : FileRead) (fmt : DataFormat)

/-- The track after an operation; a refused operation gives the track it leaves. -/
def step (t : Track) : Op → Track
  | .setId id => { t with id := id }
  | .setVisible b => { t with visible := b }
  | .setRate num den =>
    match t.setRate num den with
    | .ok t' => t'
    | .error _ => t
  | .setScale x =>
    match t.setScale x with
    | .ok t' => t'
    | .error _ => t
  | .addRect f r => t.addRect f r
  | .removeRect f => t.removeRect f
  | .clear => t.clear
  | .patch v => (t.patch v).1
  | .patchText text => (t.patchText text).1
  | .editCurve ch e =>
    { t with adjustments := t.adjustments.setCurve ch ((t.adjustments.curve ch).edit e) }
  | .load path source fmt => (t.load path source fmt).1

namespace Op

/-- Whether an operation edits the samples. -/
def editsSamples : Op → Bool
  | .addRect .. | .removeRect _ | .clear | .load .. => true
  | _ => false

/-- The observations a load adds: those the decoder yields before its first failure. -/
def loaded (source : FileRead) (fmt : DataFormat) : List Observation :=
  match source with
  | .content bytes => okPrefix (fmt.decode bytes)
  | .unopenable _ | .unreadable _ => []

/-- What an operation on `t` does to the map of its samples. -/
def onSamples (t : Track) : Op → SampleMap → SampleMap
  | .addRect f r, M => M.insert (t.sampleKey f) r
  | .removeRect f, M => M.erase (t.sampleKey f)
  | .clear, _ => ∅
  | .load _ source fmt, M =>
    (loaded source fmt).foldl (fun M o => M.insert (t.sampleKey o.frame) o.rect) M
  | _, M => M

end Op

/-! ## Operations that do not edit samples -/

/-- Metadata never touches the samples, whether it is applied or refused. -/
theorem patch_samples (t : Track) (v : Json.Value) : (t.patch v).1.samples = t.samples := by
  cases v with
  | object members => exact (applyMembers_spec t members MetadataKey.all).samples_eq
  | null | bool _ | number _ | string _ | array _ => rfl

theorem patchText_samples (t : Track) (text : String) :
    (t.patchText text).1.samples = t.samples := by
  unfold patchText
  split
  · exact patch_samples t _
  · rfl

/-- An operation that does not edit samples keeps them. -/
theorem samples_step (t : Track) (op : Op) (h : op.editsSamples = false) :
    (t.step op).samples = t.samples := by
  cases op with
  | setId | setVisible | editCurve => rfl
  | setRate num den =>
    show (match t.setRate num den with | .ok t' => t' | .error _ => t).samples = _
    cases hr : t.setRate num den with
    | ok t' => obtain ⟨r, -, rfl⟩ := setRate_eq_ok_iff.1 hr; rfl
    | error e => rfl
  | setScale x =>
    show (match t.setScale x with | .ok t' => t' | .error _ => t).samples = _
    cases hr : t.setScale x with
    | ok t' => obtain ⟨s, -, rfl⟩ := setScale_eq_ok_iff.1 hr; rfl
    | error e => rfl
  | patch v => exact patch_samples t v
  | patchText text => exact patchText_samples t text
  | addRect | removeRect | clear | load => cases h

/-! ## Operations on samples -/

theorem toMap_addRect (t : Track) (f : Nat) (r : Rect) :
    (t.addRect f r).samples.toMap = t.samples.toMap.insert (t.sampleKey f) r :=
  ((Timeline.represents_toMap t.samples).insert _ r).toMap_eq

theorem toMap_removeRect (t : Track) (f : Nat) :
    (t.removeRect f).samples.toMap = t.samples.toMap.erase (t.sampleKey f) :=
  ((Timeline.represents_toMap t.samples).remove _).toMap_eq

theorem toMap_addRects (t : Track) (os : List Observation) :
    (t.addRects os).samples.toMap =
      os.foldl (fun M o => M.insert (t.sampleKey o.frame) o.rect) t.samples.toMap := by
  induction os generalizing t with
  | nil => rfl
  | cons o rest ih =>
    have hrate : (t.addRect o.frame o.rect).sampleKey = t.sampleKey := rfl
    simp only [addRects, List.foldl_cons] at ih ⊢
    rw [ih, hrate, toMap_addRect]

theorem load_eq_addRects (t : Track) (path : String) (source : FileRead) (fmt : DataFormat) :
    (t.load path source fmt).1.samples = (t.addRects (Op.loaded source fmt)).samples := by
  cases source with
  | unopenable e => rfl
  | unreadable e => rfl
  | content bytes =>
    show (t.loadRecords path (fmt.decode bytes)).1.samples = _
    rw [loadRecords_eq]
    cases firstError? (fmt.decode bytes) <;> rfl

/-- **Each operation acts on the map of samples as `Op.onSamples` says.** -/
theorem toMap_step (t : Track) (op : Op) :
    (t.step op).samples.toMap = op.onSamples t t.samples.toMap := by
  cases hop : op.editsSamples
  · rw [samples_step t op hop]
    cases op <;> first | rfl | cases hop
  · cases op with
    | addRect f r => exact toMap_addRect t f r
    | removeRect f => exact toMap_removeRect t f
    | clear => exact (Timeline.represents_empty).toMap_eq
    | load path source fmt =>
      show (t.load path source fmt).1.samples.toMap = _
      rw [load_eq_addRects, toMap_addRects]
      rfl
    | setId | setVisible | setRate | setScale | patch | patchText | editCurve => cases hop

/-! ## Queries -/

theorem contains_iff_mem (t : Track) (f : Nat) :
    t.contains f = true ↔ t.sampleKey f ∈ t.samples.toMap :=
  (Timeline.represents_toMap t.samples).contains_iff _

theorem size_eq_card (t : Track) : t.size = t.samples.toMap.keys.card :=
  (Timeline.represents_toMap t.samples).size_eq

/-- Removing the sample of a frame that has none changes nothing. -/
theorem removeRect_of_not_contains {t : Track} {f : Nat} (h : t.contains f = false) :
    t.removeRect f = t := by
  have hg : t.samples.get? (t.recordedTime f) = none := by
    simpa [contains, Timeline.contains] using h
  simp only [removeRect, Timeline.remove_of_get?_eq_none hg]

/-! ## At time scale one -/

section ScaleOne

variable {t : Track} {f : Nat}

/-- At time scale `1`, a frame is read at its recorded time. -/
theorem queryTime_of_scale_one (hs : t.scale.value = 1.0)
    (hmul : t.recordedTime f * 1.0 = t.recordedTime f) : t.queryTime f = t.recordedTime f := by
  show t.rate.secondsAt f * t.scale.value = t.rate.secondsAt f
  rw [hs]
  exact hmul

/-- At time scale `1`, a frame with a sample finds it through the exact branch. -/
theorem baseRect?_of_get? (hs : t.scale.value = 1.0)
    (hmul : t.recordedTime f * 1.0 = t.recordedTime f) {r : Rect}
    (hg : t.samples.get? (t.recordedTime f) = some r) :
    t.samples.bracket (t.queryTime f) = .exact r ∧ t.baseRect? f = some r := by
  have hb : t.samples.bracket (t.queryTime f) = .exact r := by
    rw [queryTime_of_scale_one hs hmul, Timeline.bracket, hg]
  exact ⟨hb, by rw [baseRect?, hb]; rfl⟩

theorem exact_of_contains (hs : t.scale.value = 1.0)
    (hmul : t.recordedTime f * 1.0 = t.recordedTime f) (hc : t.contains f = true) :
    ∃ r, t.samples.toMap.lookup (t.sampleKey f) = some r ∧
      t.samples.bracket (t.queryTime f) = .exact r ∧ t.baseRect? f = some r := by
  obtain ⟨r, hr⟩ := Option.isSome_iff_exists.1 hc
  have hlookup : t.samples.toMap.lookup (t.sampleKey f) = some r := by
    rw [sampleKey, ← (Timeline.represents_toMap t.samples).get?_eq]
    exact hr
  exact ⟨r, hlookup, baseRect?_of_get? hs hmul hr⟩

/-- At time scale `1`, the rectangle just added for a frame is the one the frame reads, with the
adjustments of the frame applied. -/
theorem rectAt_addRect (hs : t.scale.value = 1.0)
    (hmul : t.recordedTime f * 1.0 = t.recordedTime f) (b : Rect) :
    (t.addRect f b).rectAt f = t.adjustments.apply b f := by
  have hg : (t.addRect f b).samples.get? ((t.addRect f b).recordedTime f) = some b := by
    show (t.samples.insert (t.recordedTime f) b).2.get? (t.recordedTime f) = some b
    rw [Timeline.get?_insert, if_pos rfl]
  rw [rectAt, (baseRect?_of_get? (t := t.addRect f b) hs hmul hg).2]
  rfl

end ScaleOne

/-- **The samples are keyed by recorded time.** The samples of a track are a finite map, and the
sample of frame `f` sits under the key of its recorded time `f × (den / num)` at the current
rate. Adding, removing and clearing set, erase and empty that map, removing an absent frame
changing nothing, and they change nothing but the samples; the membership test and the count
are the map's; loading adds its observations in order; every other operation keeps the
samples, refused or not. At time scale `1`, where `x × 1.0 = x`, a frame with a sample reads it
through the exact branch, and the rectangle just added for a frame is what the frame gives. -/
theorem samples_are_keyed_by_recorded_time (t : Track) :
    (∀ f, t.recordedTime f = Float.ofNat f * (Float.ofNat t.rate.den / Float.ofNat t.rate.num)) ∧
    (∀ f, t.contains f = true ↔ t.sampleKey f ∈ t.samples.toMap) ∧
    t.size = t.samples.toMap.keys.card ∧
    (∀ op, (t.step op).samples.toMap = op.onSamples t t.samples.toMap) ∧
    (∀ f r, { t.addRect f r with samples := t.samples } = t) ∧
    (∀ f, { t.removeRect f with samples := t.samples } = t) ∧
    { t.clear with samples := t.samples } = t ∧
    (∀ f, t.contains f = false → t.removeRect f = t) ∧
    (∀ op, op.editsSamples = false → (t.step op).samples = t.samples) ∧
    (t.scale.value = 1.0 → ∀ f, t.recordedTime f * 1.0 = t.recordedTime f →
      (t.contains f = true → ∃ r, t.samples.toMap.lookup (t.sampleKey f) = some r ∧
        t.samples.bracket (t.queryTime f) = .exact r ∧ t.baseRect? f = some r) ∧
      ∀ b, (t.addRect f b).rectAt f = t.adjustments.apply b f) :=
  ⟨fun _ => rfl, contains_iff_mem t, size_eq_card t, toMap_step t, fun _ _ => rfl, fun _ => rfl,
    rfl, fun _ h => removeRect_of_not_contains h, samples_step t,
    fun hs _ hmul => ⟨exact_of_contains hs hmul, rectAt_addRect hs hmul⟩⟩

end Track

end RegionTrack

import Mathlib.Data.List.Induction
import RegionTrack.Proofs.MetadataPatch
import RegionTrack.Proofs.TrackerDocument

/-!
# Loading tracker data into a track

A load opens the file, lets a decoder turn its bytes into observations, and adds them to the
track in order with `Track.addRect`, stopping at the first observation the decoder fails on.
What is added stays when a later observation fails: the track after a load is the track with
the observations before the first failure added (`okPrefix`), and the result is that failure
(`firstError?`) or the number added. Only a load in which nothing failed records the file as
the data path; nothing else about the track changes. A file that cannot be opened changes
nothing.

The two decoders differ in how they fail. Lines of records are read one at a time, so a bad
record ends the data after the good ones before it. A tracker document is read whole: either it
fails as one error before any observation, and the load then changes nothing, or every frame
with no corner below zero becomes an observation, in document order, at the frame's id with the
rectangle of its corners and rotation.

## Main definitions

* `okPrefix`, `firstError?`: the results before the first failure, and that failure
* `Track.addRects`: observations added in order

## Main results

* `Track.addAll_eq`, `Track.loadRecords_eq`: the loading loop, for the results of any decoder
* `readDocument_cases`: a tracker document fails whole or gives its kept frames in order
* `decode_documentText`: a written document gives its kept frames, a rotation left out as `0.0`
* `Track.load_adds_records_until_failure`: the whole contract of loading
-/

namespace RegionTrack

section Results

variable {ε α : Type}

/-- The results before the first failure. -/
def okPrefix : List (Except ε α) → List α
  | [] => []
  | .error _ :: _ => []
  | .ok a :: rest => a :: okPrefix rest

/-- The first failure among the results, if any. -/
def firstError? : List (Except ε α) → Option ε
  | [] => none
  | .error e :: _ => some e
  | .ok _ :: rest => firstError? rest

@[simp] theorem okPrefix_map_ok (xs : List α) : okPrefix (xs.map (.ok : α → Except ε α)) = xs := by
  induction xs with
  | nil => rfl
  | cons x rest ih => simp [okPrefix, ih]

@[simp] theorem firstError?_map_ok (xs : List α) :
    firstError? (xs.map (.ok : α → Except ε α)) = none := by
  induction xs with
  | nil => rfl
  | cons x rest ih => simp [firstError?, ih]

end Results

theorem Timeline.get?_insert (tl : Timeline) (t u : Float) (r : Rect) :
    (tl.insert t r).2.get? u = if Timeline.rankOf t = Timeline.rankOf u then some r else tl.get? u := by
  have hk : Timeline.entryRank (TimeKey.ofTime t, r) = Timeline.rankOf t := rfl
  simp only [Timeline.insert, Timeline.get?, Keyed.find?_insert, hk]
  by_cases h : Timeline.rankOf t = Timeline.rankOf u <;> simp [h]

namespace Track

/-- Observations added one after another. -/
def addRects (t : Track) (os : List Observation) : Track :=
  os.foldl (fun t o => t.addRect o.frame o.rect) t

/-- Adding an observation changes nothing but the samples. -/
theorem addRect_restore (t : Track) (f : Nat) (r : Rect) :
    { t.addRect f r with samples := t.samples } = t := rfl

/-- Adding observations changes nothing but the samples. -/
theorem addRects_restore (t : Track) (os : List Observation) :
    { t.addRects os with samples := t.samples } = t := by
  induction os generalizing t with
  | nil => rfl
  | cons o rest ih =>
    have h := ih (t.addRect o.frame o.rect)
    simp only [addRects, List.foldl_cons] at h ⊢
    rw [← addRect_restore t o.frame o.rect]
    exact congrArg (fun u => { u with samples := t.samples }) h

theorem addRects_append (t : Track) (os os' : List Observation) :
    t.addRects (os ++ os') = (t.addRects os).addRects os' := by
  simp [addRects, List.foldl_append]

@[simp] theorem addRects_rate (t : Track) (os : List Observation) :
    (t.addRects os).rate = t.rate := by
  have h := congrArg Track.rate (addRects_restore t os)
  exact h

/-- **A later observation overwrites an earlier one with the same recorded time.** After
observations are added, the rectangle stored under a time is that of the last of them whose
recorded time has its key, or the one stored before if there is none. -/
theorem addRects_get? (t : Track) (os : List Observation) (u : Float) :
    (t.addRects os).samples.get? u =
      ((os.filter fun o => Timeline.rankOf (t.recordedTime o.frame) = Timeline.rankOf u).getLast?.map
        (·.rect)).or (t.samples.get? u) := by
  induction os using List.reverseRecOn with
  | nil => simp [addRects]
  | append_singleton os o ih =>
    rw [addRects_append, List.filter_append, List.getLast?_append]
    show ((t.addRects os).samples.insert ((t.addRects os).recordedTime o.frame) o.rect).2.get? u = _
    rw [Timeline.get?_insert, recordedTime, addRects_rate, ← recordedTime, ih]
    by_cases ho : Timeline.rankOf (t.recordedTime o.frame) = Timeline.rankOf u
    · simp [ho]
    · simp [ho]

/-- **The loading loop.** Adding the results of a decoder adds the observations before the first
failure; the result is that failure, or the count of observations added. -/
theorem addAll_eq (t : Track) (n : Nat) (rs : List (Except TrackError Observation)) :
    t.addAll n rs =
      (t.addRects (okPrefix rs),
        match firstError? rs with
        | none => .ok (n + (okPrefix rs).length)
        | some e => .error e) := by
  induction rs generalizing t n with
  | nil => rfl
  | cons r rest ih =>
    cases r with
    | error e => rfl
    | ok o =>
      rw [addAll, ih]
      simp only [addRects, okPrefix, firstError?, List.foldl_cons, List.length_cons]
      cases firstError? rest with
      | none => simp only [Prod.mk.injEq, Except.ok.injEq, true_and]; omega
      | some e => rfl

/-- Loading the results of a decoder: the observations before the first failure are added, and
the data path is set only when nothing failed. -/
theorem loadRecords_eq (t : Track) (path : String) (rs : List (Except TrackError Observation)) :
    t.loadRecords path rs =
      match firstError? rs with
      | none => ({ t.addRects (okPrefix rs) with dataPath := some path }, .ok (okPrefix rs).length)
      | some e => (t.addRects (okPrefix rs), .error e) := by
  rw [loadRecords, addAll_eq]
  cases firstError? rs with
  | none => simp
  | some e => rfl

end Track

/-! ## Tracker documents -/

namespace Json.Record

/-- A field left out of a record is completed with its default. -/
theorem complete_default {fields : List Field} {found : List (Option Value)} {vs : List Value}
    (h : complete fields found = .ok vs) {i : Nat} {f : Field} {d : Value}
    (hf : fields[i]? = some f) (hfound : found[i]? = some none) (hd : f.default = some d) :
    vs[i]? = some d := by
  induction fields generalizing found vs i with
  | nil => simp at hf
  | cons f0 fs ih =>
    cases found with
    | nil => simp at hfound
    | cons a as =>
      simp only [complete, List.zip_cons_cons, List.mapM_cons] at h
      obtain ⟨v0, h0, h⟩ := Except.bind_eq_ok.1 h
      obtain ⟨vs', hrest, h⟩ := Except.bind_eq_ok.1 h
      cases Except.pure_eq_ok.1 h
      cases i with
      | zero =>
        simp only [List.getElem?_cons_zero, Option.some.injEq] at hf hfound
        subst hf hfound
        simp only [hd] at h0
        cases h0
        rfl
      | succ i => exact ih hrest hf hfound

end Json.Record

namespace TrackedFrame

/-- A frame is kept when no corner is below zero; the others mark frames where the tracker lost
the region. -/
def Kept (f : TrackedFrame) : Prop := ¬ f.x1 < 0.0 ∧ ¬ f.y1 < 0.0 ∧ ¬ f.x2 < 0.0 ∧ ¬ f.y2 < 0.0

instance (f : TrackedFrame) : Decidable f.Kept := inferInstanceAs (Decidable (_ ∧ _))

/-- The observation of a frame: at its id, the rectangle of its corners and rotation. -/
def toObservation (f : TrackedFrame) : Observation :=
  ⟨f.id, Rect.ofCorners f.x1 f.y1 f.x2 f.y2 f.rotation⟩

theorem observation?_eq (f : TrackedFrame) :
    f.observation? = if f.Kept then some f.toObservation else none := by
  unfold observation? Kept toObservation
  by_cases h1 : f.x1 < 0.0 <;> by_cases h2 : f.y1 < 0.0 <;> by_cases h3 : f.x2 < 0.0 <;>
    by_cases h4 : f.y2 < 0.0 <;> simp [h1, h2, h3, h4]

/-- The observations of frames, in order: one for each kept frame. -/
theorem filterMap_observation? (frames : List TrackedFrame) :
    frames.filterMap (fun f => f.observation?.map (.ok : Observation → Except TrackError Observation)) =
      ((frames.filter (·.Kept)).map toObservation).map .ok := by
  induction frames with
  | nil => rfl
  | cons f rest ih =>
    rw [List.filterMap_cons, observation?_eq]
    by_cases hk : f.Kept
    · rw [if_pos hk, Option.map_some, ih, List.filter_cons_of_pos (by simpa using hk)]
      rfl
    · rw [if_neg hk, Option.map_none, ih, List.filter_cons_of_neg (by simpa using hk)]

/-- A frame whose rotation is absent is read with rotation `0.0`: the record is completed with
the field's default. -/
theorem rotation_of_absent {found : List (Option Json.Value)} {vs : List Json.Value}
    (h : Json.Record.complete fields found = .ok vs) (habs : found[1]? = some none) :
    (ofFields vs).rotation = 0.0 := by
  have hv : vs[1]? = some (.number (.float 0.0)) := Json.Record.complete_default h rfl habs rfl
  unfold ofFields
  split
  next i r _ _ _ _ => simp at hv; subst hv; rfl
  next => rfl

/-- Leaving the rotation out keeps the corners, so whether the frame is kept. -/
theorem kept_written (f : TrackedFrame) (rotated : Bool) : (f.written rotated).Kept ↔ f.Kept := by
  cases rotated <;> rfl

/-- The observation of a written frame: its rotation is `0.0` when not written. -/
theorem toObservation_written (f : TrackedFrame) (rotated : Bool) :
    (f.written rotated).toObservation =
      ⟨f.id, Rect.ofCorners f.x1 f.y1 f.x2 f.y2 (if rotated then f.rotation else 0.0)⟩ := by
  cases rotated <;> rfl

end TrackedFrame

/-- **A tracker document is read whole.** It either fails, and then gives one error and no
observation, or its frames are read, and then every frame with no corner below zero gives one
observation, in document order. -/
theorem readDocument_cases (bytes : List UInt8) :
    (∃ e, readFrames bytes = .error e ∧ readDocument bytes = [.error (.badDocument e)]) ∨
      (∃ frames, readFrames bytes = .ok frames ∧
        readDocument bytes = ((frames.filter (·.Kept)).map TrackedFrame.toObservation).map .ok) := by
  unfold readDocument
  cases readFrames bytes with
  | error e => exact .inl ⟨e, rfl, rfl⟩
  | ok frames => exact .inr ⟨frames, rfl, TrackedFrame.filterMap_observation? frames⟩

/-- **A written tracker document decodes frame by frame.** A document written from frames that
read back gives one observation for each frame with no corner below zero, in document order: at
the frame's id, the rectangle of its corners and its rotation, `0.0` when the rotation is left
out. -/
theorem decode_documentText {frames : List (TrackedFrame × Bool)}
    (h : ∀ p ∈ frames, p.1.ReadsBack p.2) :
    DataFormat.frames.decode (documentText frames) =
      (frames.filter fun p => p.1.Kept).map fun p =>
        .ok ⟨p.1.id, Rect.ofCorners p.1.x1 p.1.y1 p.1.x2 p.1.y2
          (if p.2 then p.1.rotation else 0.0)⟩ := by
  simp only [DataFormat.decode, readDocument, readFrames_documentText h,
    TrackedFrame.filterMap_observation?, List.filter_map, List.map_map]
  congr 1
  · funext p
    simp only [Function.comp_apply, TrackedFrame.toObservation_written]
  · exact List.filter_congr fun p _ => by
      simp only [Function.comp_apply, TrackedFrame.kept_written]

namespace Track

/-- A tracker document that fails to read fails the load and changes nothing; one that reads
succeeds, adding the observations of its kept frames. -/
theorem load_frames_whole (t : Track) (path : String) (bytes : List UInt8) :
    (∃ e, readFrames bytes = .error e ∧
      t.load path (.content bytes) .frames = (t, .error (.badDocument e))) ∨
    (∃ frames, readFrames bytes = .ok frames ∧
      DataFormat.frames.decode bytes =
        ((frames.filter (·.Kept)).map TrackedFrame.toObservation).map .ok ∧
      t.load path (.content bytes) .frames =
        ({ t.addRects ((frames.filter (·.Kept)).map TrackedFrame.toObservation) with
            dataPath := some path },
          .ok (frames.filter (·.Kept)).length)) := by
  rcases readDocument_cases bytes with ⟨e, he, hdoc⟩ | ⟨frames, hf, hdoc⟩
  · refine .inl ⟨e, he, ?_⟩
    show t.loadRecords path (readDocument bytes) = _
    rw [hdoc, loadRecords_eq]
    rfl
  · refine .inr ⟨frames, hf, hdoc, ?_⟩
    show t.loadRecords path (readDocument bytes) = _
    rw [hdoc, loadRecords_eq, firstError?_map_ok, okPrefix_map_ok, List.length_map]

/-- **Loading tracker data.** A file that cannot be opened is an input/output error naming the
path and changes nothing; otherwise the decoder's observations are added in order until the
first failure. The track keeps those added; its data path is set to the file, and the result is
their count, only when nothing failed; nothing but the samples and the data path changes, and of
two observations with one recorded time the later wins. A tracker document is read whole: it
fails as one error and changes nothing, or each frame with no corner below zero gives, in
order, the observation at its id of the rectangle of its corners and its rotation, `0.0` when
absent: a frame is completed with that default, and a document written from frames, some with
their rotation left out, decodes so. Loading reports success exactly when the load succeeds. -/
theorem load_adds_records_until_failure (t : Track) (path : String) (source : FileRead)
    (fmt : DataFormat) :
    (∀ e, source = .unopenable e →
      t.load path source fmt = (t, .error (.unopenable path e)) ∧
        (TrackError.unopenable path e).kind = .io) ∧
    (∀ bytes, source = .content bytes →
      t.load path source fmt = t.loadRecords path (fmt.decode bytes)) ∧
    (∀ e, source = .unreadable e →
      t.load path source fmt = t.loadRecords path [.error (fmt.streamFailure e)]) ∧
    (∀ rs : List (Except TrackError Observation),
      t.loadRecords path rs =
        match firstError? rs with
        | none => ({ t.addRects (okPrefix rs) with dataPath := some path },
            .ok (okPrefix rs).length)
        | some e => (t.addRects (okPrefix rs), .error e)) ∧
    (∀ os, { t.addRects os with samples := t.samples } = t) ∧
    (∀ os u, (t.addRects os).samples.get? u =
      ((os.filter fun o => Timeline.rankOf (t.recordedTime o.frame) = Timeline.rankOf u).getLast?.map
        (·.rect)).or (t.samples.get? u)) ∧
    (∀ bytes,
      (∃ e, readFrames bytes = .error e ∧
        t.load path (.content bytes) .frames = (t, .error (.badDocument e))) ∨
      (∃ frames, readFrames bytes = .ok frames ∧
        DataFormat.frames.decode bytes =
          ((frames.filter (·.Kept)).map TrackedFrame.toObservation).map .ok ∧
        t.load path (.content bytes) .frames =
          ({ t.addRects ((frames.filter (·.Kept)).map TrackedFrame.toObservation) with
              dataPath := some path },
            .ok (frames.filter (·.Kept)).length))) ∧
    (∀ found vs, Json.Record.complete TrackedFrame.fields found = .ok vs →
      found[1]? = some none → (TrackedFrame.ofFields vs).rotation = 0.0) ∧
    (∀ frames : List (TrackedFrame × Bool), (∀ p ∈ frames, p.1.ReadsBack p.2) →
      DataFormat.frames.decode (documentText frames) =
        (frames.filter fun p => p.1.Kept).map fun p =>
          .ok ⟨p.1.id, Rect.ofCorners p.1.x1 p.1.y1 p.1.x2 p.1.y2
            (if p.2 then p.1.rotation else 0.0)⟩) ∧
    (t.loadOk path source fmt).1 = (t.load path source fmt).1 ∧
    ((t.loadOk path source fmt).2 = true ↔ ∃ n, (t.load path source fmt).2 = .ok n) := by
  refine ⟨fun e he => ?unopenable, fun bytes hb => ?content, fun e he => ?unreadable,
    loadRecords_eq t path, addRects_restore t, addRects_get? t, load_frames_whole t path,
    fun _ _ h habs => TrackedFrame.rotation_of_absent h habs, fun _ h => decode_documentText h,
    rfl, ?ok⟩
  case unopenable => subst he; exact ⟨rfl, rfl⟩
  case content => subst hb; rfl
  case unreadable => subst he; rfl
  case ok =>
    show (t.load path source fmt).2.toBool = true ↔ _
    cases (t.load path source fmt).2 with
    | ok n => exact ⟨fun _ => ⟨n, rfl⟩, fun _ => rfl⟩
    | error e => exact ⟨fun h => absurd h Bool.false_ne_true, fun ⟨_, h⟩ => absurd h (by simp)⟩

end Track

end RegionTrack

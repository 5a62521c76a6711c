import RegionTrack.Adjustments
import RegionTrack.Timeline
import RegionTrack.Observation

/-!
# Tracks

A track follows one region of a clip. Its samples are rectangles stored at *recorded* time:
frame `n` of the tracker data is stored at `rate.secondsAt n`, the rate being the one the data
was recorded at. A query for clip frame `f` reads the samples at `frameTime rate scale f`, so
changing the time scale re-times the samples without rewriting them; between samples the
rectangle moves linearly, outside them it stays at the nearest one. The adjustment curves are
keyed by clip frame and applied on every query, never stored into the samples.

## Main definitions

* `Track`: identity, visibility, rate, time scale, data path, samples and adjustments
* `Track.baseRect?`: the sample rectangle a frame reads, `none` for a track without samples
* `Track.rectAt`: the adjusted rectangle at a frame, `Rect.unset` without samples
* `Track.records`: the samples as observations, frames recovered from the rate
* `Track.loadRecords`, `Track.load`: observations of tracker data added one by one
* `Track.sameAs`: equality of tracks, with floats compared as floats
-/

namespace RegionTrack

/-- A tracked region. -/
structure Track where
  id : String := ""
  visible : Bool := true
  rate : FrameRate := FrameRate.unit
  scale : TimeScale := TimeScale.one
  /-- The file the samples were last loaded from. -/
  dataPath : Option String := none
  samples : Timeline := .empty
  adjustments : Adjustments := Adjustments.initial
deriving Inhabited

namespace Track

/-- The empty track at the rate `num / den`, refused if a term is zero. -/
def withRate (num den : Nat) : Except TrackError Track := do
  return { rate := ← FrameRate.make num den }

/-- Sets the recorded rate, refused if a term is zero. -/
def setRate (t : Track) (num den : Nat) : Except TrackError Track := do
  return { t with rate := ← FrameRate.make num den }

/-- Sets the time scale, refused unless finite and positive. -/
def setScale (t : Track) (x : Float) : Except TrackError Track := do
  return { t with scale := ← TimeScale.make x }

/-- The recorded time of a frame of the tracker data. -/
def recordedTime (t : Track) (f : Nat) : Float := t.rate.secondsAt f

/-- Stores the sample of frame `f`, replacing one stored there. -/
def addRect (t : Track) (f : Nat) (r : Rect) : Track :=
  { t with samples := (t.samples.insert (t.recordedTime f) r).2 }

/-- Removes the sample of frame `f`, if there is one. -/
def removeRect (t : Track) (f : Nat) : Track :=
  { t with samples := (t.samples.remove (t.recordedTime f)).2 }

/-- Whether a sample is stored for frame `f` itself (a frame between samples does not count). -/
def contains (t : Track) (f : Nat) : Bool := t.samples.contains (t.recordedTime f)

/-- The number of samples. -/
def size (t : Track) : Nat := t.samples.size

/-- Whether no sample is stored. -/
def isEmpty (t : Track) : Bool := t.samples.isEmpty

/-- Drops every sample; curves, rate and scale stay. -/
def clear (t : Track) : Track := { t with samples := .empty }

/-- The recorded time that clip frame `f` reads. -/
def queryTime (t : Track) (f : Nat) : Float := frameTime t.rate t.scale f

/-- The time of frame `f` at the track's rate and the scale `scale`, which is checked. -/
def frameTimeAt (t : Track) (f : Nat) (scale : Float) : Except TrackError Float :=
  frameTime? t.rate.num t.rate.den f scale

/-- The sample rectangle that clip frame `f` reads, before adjustments. -/
def baseRect? (t : Track) (f : Nat) : Option Rect :=
  let target := t.queryTime f
  (t.samples.bracket target).resolve target

/-- The rectangle at clip frame `f`: the sample rectangle with the adjustments at `f`
applied, or `Rect.unset` when there are no samples. -/
def rectAt (t : Track) (f : Nat) : Rect :=
  match t.baseRect? f with
  | some r => t.adjustments.apply r f
  | none => Rect.unset

/-- The rectangles of the frames of a span, in order. -/
def rects (t : Track) (span : FrameSpan) : List Rect := span.frames.map t.rectAt

/-- The frame a recorded time belongs to: the time in frames, rounded half away from zero,
and brought into the unsigned 64-bit range (below zero and NaN give 0). -/
def frameOfTime (t : Track) (time : Float) : Nat :=
  (Float.round (time * t.rate.perSecond)).toUInt64.toNat

/-- The samples as observations, in time order. -/
def records (t : Track) : List Observation :=
  t.samples.toList.map fun (time, r) => ⟨t.frameOfTime time, r⟩

/-- Adds observations in order until one fails. Gives the track with the observations before
the failure, and either their number or the failure. -/
def addAll (t : Track) (count : Nat) :
    List (Except TrackError Observation) → Track × Except TrackError Nat
  | [] => (t, .ok count)
  | .error e :: _ => (t, .error e)
  | .ok o :: rest => addAll (t.addRect o.frame o.rect) (count + 1) rest

/-- Adds the observations a decoder yields for the file `path`, in order, until one fails. Those
before a failure stay; the data path is set only when every observation was added. -/
def loadRecords (t : Track) (path : String) (records : List (Except TrackError Observation)) :
    Track × Except TrackError Nat :=
  match t.addAll 0 records with
  | (t', .ok n) => ({ t' with dataPath := some path }, .ok n)
  | (t', .error e) => (t', .error e)

/-- Loads tracker data from the file `path`, which reading gave as `source`. A file that cannot
be opened changes nothing; a file that was opened but cannot be read fails at its first record. -/
def load (t : Track) (path : String) (source : FileRead) (fmt : DataFormat) :
    Track × Except TrackError Nat :=
  match source with
  | .unopenable e => (t, .error (.unopenable path e))
  | .unreadable e => t.loadRecords path [.error (fmt.streamFailure e)]
  | .content bytes => t.loadRecords path (fmt.decode bytes)

/-- Loads as `load` does, and says only whether the load succeeded. -/
def loadOk (t : Track) (path : String) (source : FileRead) (fmt : DataFormat) : Track × Bool :=
  let (t', r) := t.load path source fmt
  (t', r.toBool)

/-- Keyframe lists equal as lists, values compared as floats. -/
def sameKeys : List Keyframe → List Keyframe → Bool
  | [], [] => true
  | a :: as, b :: bs => a.frame == b.frame && a.value == b.value && a.easing == b.easing &&
    sameKeys as bs
  | _, _ => false

/-- Curves equal, values compared as floats. -/
def sameCurve (a b : Curve) : Bool := a.default == b.default && sameKeys a.keys b.keys

/-- Sample lists equal: the same keys (as bits) with equal rectangles. -/
def sameEntries : List (TimeKey × Rect) → List (TimeKey × Rect) → Bool
  | [], [] => true
  | (j, r) :: as, (k, s) :: bs =>
    TimeKey.rank j.secs == TimeKey.rank k.secs && r.beq s && sameEntries as bs
  | _, _ => false

/-- Tracks equal field by field, floats compared as floats: a NaN anywhere in the samples or
the curves makes a track unequal even to itself. -/
def sameAs (a b : Track) : Bool :=
  a.id == b.id && a.visible == b.visible && a.rate.num == b.rate.num &&
    a.rate.den == b.rate.den && a.scale.value == b.scale.value && a.dataPath == b.dataPath &&
    sameEntries a.samples.entries b.samples.entries &&
    Channel.all.all fun ch => sameCurve (a.adjustments.curve ch) (b.adjustments.curve ch)

end Track

end RegionTrack

import RegionTrack.Proofs.LinesRoundTrip

/-!
# Tracker documents read back

A tracker document is one object whose `frames` member is an array of frame objects, each with
an `id`, a `rotation` that may be left out, and a `bounding_box` of four corners
(`documentShape`). It is read whole, as a stream (`readFrames`). This module writes such a
document compactly from frames, each with or without its rotation member (`documentText`), and
shows that reading it gives the frames back in order, a frame whose rotation was left out with
rotation `0.0` (`readFrames_documentText`).

The document nests four levels: the document, its array of frames, each frame, and its corner
box. Each level is read by the law of its kind from the level inside it
(`Json.Shape.readsTextBelow_record`, `Json.Reader.readsTextBelow_seq`), in a complete text; the
stream then reads the same bytes alike (`Json.Reader.ModeFree.document`).

## Main definitions

* `TrackedFrame.text`: a frame written as a compact object, with or without its rotation
* `TrackedFrame.written`: the frame such a text stands for
* `documentText`: a tracker document of frames, written compactly

## Main results

* `readFrames_documentText`: a document written from frames reads back as those frames
-/

namespace RegionTrack

open Json Reader Record

namespace TrackedFrame

/-- The corner box of a frame, as the members of a compact object. -/
def cornerMembers (f : TrackedFrame) : List (String × List UInt8) :=
  [("x1", textBytes (Number.float f.x1).text), ("y1", textBytes (Number.float f.y1).text),
    ("x2", textBytes (Number.float f.x2).text), ("y2", textBytes (Number.float f.y2).text)]

/-- The members of a frame's compact object: its id, its rotation when `rotated`, and its corner
box. -/
def members (f : TrackedFrame) (rotated : Bool) : List (String × List UInt8) :=
  ("id", textBytes (toString f.id)) ::
    ((if rotated then [("rotation", textBytes (Number.float f.rotation).text)] else []) ++
      [("bounding_box", objectText f.cornerMembers)])

/-- A frame written as a compact object, with its rotation when `rotated`. -/
def text (f : TrackedFrame) (rotated : Bool) : List UInt8 := objectText (f.members rotated)

/-- The frame the text of `f` stands for: `f` itself, with rotation `0.0` when the rotation is
not written. -/
def written (f : TrackedFrame) (rotated : Bool) : TrackedFrame :=
  if rotated then f else { f with rotation := 0.0 }

/-- The numbers the text of a frame holds: its rotation when written, then its corners. -/
def numbers (f : TrackedFrame) (rotated : Bool) : List Float :=
  (if rotated then [f.rotation] else []) ++ [f.x1, f.y1, f.x2, f.y2]

/-- A frame whose text reads back: its id fits in 64 bits, and the numbers written are finite
and their texts read back. -/
structure ReadsBack (f : TrackedFrame) (rotated : Bool) : Prop where
  id : f.id ≤ maxU64
  numbers : ∀ x ∈ f.numbers rotated, x.isFinite = true ∧ FloatReadsBack x

/-- The values of a frame's corner box. -/
def cornerValues (f : TrackedFrame) : List Value :=
  [f.x1, f.y1, f.x2, f.y2].map fun x => .number (.float x)

/-- The values of a frame's fields, as a frame reads its text. -/
def values (f : TrackedFrame) (rotated : Bool) : List Value :=
  [.ofNat f.id, .number (.float (f.written rotated).rotation), .array f.cornerValues]

theorem ofFields_values (f : TrackedFrame) (rotated : Bool) :
    ofFields (f.values rotated) = f.written rotated := by
  cases rotated <;> rfl

theorem ofValue_toValue (f : TrackedFrame) : ofValue f.toValue = f := rfl

end TrackedFrame

/-- A tracker document of frames, each written with its rotation when its flag is set. -/
def documentText (frames : List (TrackedFrame × Bool)) : List UInt8 :=
  objectText [("frames", arrayText (frames.map fun p => p.1.text p.2))]

namespace TrackedFrame

variable {f : TrackedFrame} {rotated : Bool}

/-- The corner box of a frame reads as its corners. -/
theorem readsText_corners
    (h : ∀ x ∈ [f.x1, f.y1, f.x2, f.y2], x.isFinite = true ∧ FloatReadsBack x) :
    ReadsTextBelow 1 (cornersShape.map Value.array) (objectText f.cornerMembers)
      (.array f.cornerValues) := by
  have hnames : f.cornerMembers.map Prod.fst = ["x1", "y1", "x2", "y2"] := rfl
  have hlen : f.cornerValues.length = 4 := rfl
  refine ReadsTextBelow.map_of_eq (v := f.cornerValues) ?_ rfl
  refine Shape.readsTextBelow_record _ (by decide) rfl (fun m hm => ?_) (by rw [hnames]; decide)
    (fun i hi _ hnot => absurd ?_ hnot)
  · simp only [cornerMembers, List.mem_cons, List.not_mem_nil, or_false] at hm
    obtain ⟨h1, h2, h3, h4⟩ : _ ∧ _ ∧ _ ∧ _ := by simpa using h
    rcases hm with rfl | rfl | rfl | rfl
    · exact ⟨0, by decide, by omega, rfl, (Observation.readsText_floatField h1.1 h1.2).below 0⟩
    · exact ⟨1, by decide, by omega, rfl, (Observation.readsText_floatField h2.1 h2.2).below 0⟩
    · exact ⟨2, by decide, by omega, rfl, (Observation.readsText_floatField h3.1 h3.2).below 0⟩
    · exact ⟨3, by decide, by omega, rfl, (Observation.readsText_floatField h4.1 h4.2).below 0⟩
  · rw [hnames]
    simp only [List.length_map, List.length_cons, List.length_nil] at hi
    interval_cases i <;> simp [Observation.floatField]

/-- A frame reads its text as the frame the text stands for. -/
theorem readsText_frame (h : f.ReadsBack rotated) :
    ReadsTextBelow 2 TrackedFrame.shape (f.text rotated) (f.written rotated) := by
  obtain ⟨hid, hnum⟩ := h
  have hcorners : ∀ x ∈ [f.x1, f.y1, f.x2, f.y2], x.isFinite = true ∧ FloatReadsBack x :=
    fun x hx => hnum x (List.mem_append_right _ hx)
  have hlen : (f.values rotated).length = 3 := rfl
  refine ReadsTextBelow.map_of_eq (v := f.values rotated) ?_ (ofFields_values f rotated)
  cases rotated with
  | false =>
    have hnames : (f.members false).map Prod.fst = ["id", "bounding_box"] := rfl
    refine Shape.readsTextBelow_record _ (by decide) rfl (fun m hm => ?_) (by rw [hnames]; decide)
      (fun i hi _ hnot => ?_)
    · simp only [members, Bool.false_eq_true, if_false, List.nil_append, List.mem_cons,
        List.not_mem_nil, or_false] at hm
      rcases hm with rfl | rfl
      · exact ⟨0, by decide, by omega, rfl, (Observation.readsText_frameField hid).below 1⟩
      · exact ⟨2, by decide, by omega, rfl, readsText_corners hcorners⟩
    · rw [hnames] at hnot
      simp only [fields, List.length_cons, List.length_nil] at hi
      interval_cases i
      · exact absurd List.mem_cons_self hnot
      · rfl
      · exact absurd (List.mem_cons_of_mem _ List.mem_cons_self) hnot
  | true =>
    have hnames : (f.members true).map Prod.fst = ["id", "rotation", "bounding_box"] := rfl
    have hrot := hnum f.rotation (by simp [numbers])
    refine Shape.readsTextBelow_record _ (by decide) rfl (fun m hm => ?_) (by rw [hnames]; decide)
      (fun i hi _ hnot => absurd ?_ hnot)
    · simp only [members, if_true, List.singleton_append, List.mem_cons, List.not_mem_nil,
        or_false] at hm
      rcases hm with rfl | rfl | rfl
      · exact ⟨0, by decide, by omega, rfl, (Observation.readsText_frameField hid).below 1⟩
      · exact ⟨1, by decide, by omega, rfl, (Observation.readsText_floatField hrot.1 hrot.2).below 1⟩
      · exact ⟨2, by decide, by omega, rfl, readsText_corners hcorners⟩
    · rw [hnames]
      simp only [fields, List.length_cons, List.length_nil] at hi
      interval_cases i
      · exact List.mem_cons_self
      · exact List.mem_cons_of_mem _ List.mem_cons_self
      · exact List.mem_cons_of_mem _ (List.mem_cons_of_mem _ List.mem_cons_self)

/-- The frames of a document, written one after another in an array, read as the frames they
stand for, in order. -/
theorem readsText_frames {frames : List (TrackedFrame × Bool)}
    (h : ∀ p ∈ frames, p.1.ReadsBack p.2) :
    ReadsTextBelow 3 (Shape.seq TrackedFrame.shape) (arrayText (frames.map fun p => p.1.text p.2))
      (frames.map fun p => p.1.written p.2) := by
  refine readsTextBelow_seq ?_ fun t ht => ?_
  · rw [List.forall₂_map_left_iff, List.forall₂_map_right_iff]
    exact List.forall₂_same.2 fun p hp => readsText_frame (h p hp)
  · obtain ⟨p, -, rfl⟩ := List.mem_map.1 ht
    exact ⟨123, _, rfl, rfl, by decide⟩

end TrackedFrame

/-- A document written from frames reads, in a text, as the frames its text stands for. -/
theorem readsText_document {frames : List (TrackedFrame × Bool)}
    (h : ∀ p ∈ frames, p.1.ReadsBack p.2) :
    ReadsTextBelow 4 documentShape (documentText frames) (frames.map fun p => p.1.written p.2) := by
  refine ReadsTextBelow.map_of_eq
    (v := [.array ((frames.map fun p => p.1.written p.2).map (·.toValue)), .null]) ?_ ?_
  · refine Shape.readsTextBelow_record _ (by decide) rfl (fun m hm => ?_)
      (List.nodup_singleton _) (fun i hi _ hnot => ?_)
    · rcases List.mem_singleton.1 hm with rfl
      exact ⟨0, by decide, by simp, rfl, (TrackedFrame.readsText_frames h).map_of_eq rfl⟩
    · simp only [List.length_cons, List.length_nil] at hi
      interval_cases i
      · exact absurd List.mem_cons_self hnot
      · rfl
  · show List.map TrackedFrame.ofValue _ = _
    simp only [List.map_map, Function.comp_def, TrackedFrame.ofValue_toValue]

/-- A frame reads the same from a stream as from a text. -/
theorem TrackedFrame.modeFree_shape_read : ModeFree TrackedFrame.shape.read := by
  refine ModeFree.shape_map _ (modeFree_record_read _ fun f hf => ?_)
  simp only [TrackedFrame.fields, List.mem_cons, List.not_mem_nil, or_false] at hf
  rcases hf with rfl | rfl | rfl
  · exact (modeFree_number_read _ _).shape_map _
  · exact (modeFree_number_read _ _).shape_map _
  · refine ModeFree.shape_map _ (modeFree_record_read _ fun g hg => ?_)
    simp only [List.map_cons, List.map_nil, List.mem_cons, List.not_mem_nil, or_false] at hg
    rcases hg with rfl | rfl | rfl | rfl <;> exact (modeFree_number_read _ _).shape_map _

/-- A tracker document reads the same from a stream as from a text. -/
theorem modeFree_documentShape_read : ModeFree documentShape.read := by
  refine ModeFree.shape_map _ (modeFree_record_read _ fun f hf => ?_)
  simp only [List.mem_cons, List.not_mem_nil, or_false] at hf
  rcases hf with rfl | rfl
  · exact TrackedFrame.modeFree_shape_read.seq_read.shape_map _
  · exact modeFree_any_read.option_read.shape_map _

/-- **A tracker document reads back.** A document written from frames whose ids fit in 64 bits
and whose written numbers are finite and read back is read whole, as a stream, as those frames in
order; a frame written without its rotation is read with rotation `0.0`. -/
theorem readFrames_documentText {frames : List (TrackedFrame × Bool)}
    (h : ∀ p ∈ frames, p.1.ReadsBack p.2) :
    readFrames (documentText frames) = .ok (frames.map fun p => p.1.written p.2) := by
  let start := Cursor.start .text (documentText frames)
  have htext := readsText_document h (c := start) (r := []) (Cursor.start_plain _)
    (show 4 < 128 by decide) (by simp [start, Cursor.start]) stopsNumber_zero
  have hend : (start.advance (documentText frames).length).rest = [] := by
    simp [start, Cursor.start]
  have hskip : Reads skipBlanks (start.advance (documentText frames).length) none
      (start.advance (documentText frames).length) := by
    simpa using reads_skipBlanks ((Cursor.start_plain _).advance _) (l := []) (r := [])
      (by simpa using hend) (by simp) (by simp)
  have hdoc : Reads (document documentShape.read) start (frames.map fun p => p.1.written p.2)
      (start.advance (documentText frames).length) :=
    htext.bind (hskip.bind (Reads.pure _ _))
  obtain ⟨d, hd, -⟩ := modeFree_documentShape_read.document.of_toText
    (d := Cursor.start .stream (documentText frames)) hdoc
  exact run_eq_ok.2 ⟨d, hd⟩

end RegionTrack

import RegionTrack.Track.Span

/-!
# The rectangles of a span of frames

A span from `start` to `stop` can be made exactly when `start ≤ stop`; otherwise making it is
refused as an invalid state. Its frames are the frames it contains, in increasing order, and its
rectangles are the rectangles of those frames in that order, whichever way they are computed.

A parallel run gives the list of the sequential one however the runtime cuts the span
(`FrameSpan.Pieces.collect_eq_map`): by induction on the cuts, the two pieces of a cut cover
consecutive runs of frames that meet without a gap or an overlap, so joining their results joins
the two runs.

## Main results

* `FrameSpan.Pieces.collect_eq_map`: a run cut into pieces maps the frames in order
* `FrameSpan.mem_frames_iff`, `FrameSpan.frames_sorted`: the frames of a span
* `Track.boxes_eq_rects`: a parallel run gives the sequential rectangles
* `Track.boxes_in_frame_order`: the contract of the rectangles of a span
-/

namespace RegionTrack

namespace FrameSpan

variable {start stop : Nat}

theorem make_of_le (h : start ≤ stop) : make start stop = .ok ⟨start, stop, h⟩ := by
  rw [make, dif_pos h]

theorem make_of_lt (h : stop < start) : make start stop = .error .reversedRange := by
  rw [make, dif_neg (Nat.not_le.2 h)]

/-- A span can be made exactly when it does not end before it starts. -/
theorem exists_make_iff : (∃ span, make start stop = .ok span) ↔ start ≤ stop := by
  constructor
  · rintro ⟨span, hspan⟩
    refine Nat.not_lt.1 fun hlt => ?_
    rw [make_of_lt hlt] at hspan
    cases hspan
  · intro h
    exact ⟨_, make_of_le h⟩

/-- A span that was made runs from the frames it was made from. -/
theorem eq_of_make {span : FrameSpan} (h : make start stop = .ok span) :
    span.start = start ∧ span.stop = stop := by
  by_cases hle : start ≤ stop
  · rw [make_of_le hle] at h
    cases h
    exact ⟨rfl, rfl⟩
  · rw [make_of_lt (Nat.lt_of_not_le hle)] at h
    cases h

variable (span : FrameSpan)

theorem length_frames : span.frames.length = span.length := List.length_range'

/-- The frames of a span are the frames it contains. -/
theorem mem_frames_iff (f : Nat) : f ∈ span.frames ↔ span.contains f = true := by
  have hle := span.start_le
  simp only [frames, List.mem_range'_1, contains, length, Bool.and_eq_true, decide_eq_true_eq]
  omega

/-- The frames of a span increase. -/
theorem frames_sorted : span.frames.Pairwise (· < ·) := List.pairwise_lt_range'

end FrameSpan

namespace FrameSpan.Pieces

/-- **A run cut into pieces maps the frames in order.** However the frames are cut, the joined
results are those of mapping the frames one after another. -/
theorem collect_eq_map {α : Type} (g : Nat → α) {n : Nat} (p : Pieces n) (start : Nat) :
    p.collect g start = (List.range' start n).map g := by
  induction p generalizing start with
  | whole n => rfl
  | @cut m n first rest ihFirst ihRest =>
    rw [collect, ihFirst, ihRest, ← List.map_append, List.range'_append_1]

end FrameSpan.Pieces

namespace Track

variable (t : Track) (span : FrameSpan)

theorem length_rects : (t.rects span).length = span.length := by
  rw [rects, List.length_map, FrameSpan.length_frames]

/-- The `i`-th rectangle of a span is that of its `i`-th frame. -/
theorem getElem?_rects {i : Nat} (hi : i < span.length) :
    (t.rects span)[i]? = some (t.rectAt (span.start + i)) := by
  rw [rects, List.getElem?_map, FrameSpan.frames, List.getElem?_range' hi, Nat.one_mul]
  rfl

/-- A parallel run gives the rectangles of the sequential one, however the span is cut. -/
theorem boxes_eq_rects (parallel : Bool) (p : FrameSpan.Pieces span.length) :
    t.boxes span parallel p = t.rects span := by
  cases parallel with
  | false => rfl
  | true => exact FrameSpan.Pieces.collect_eq_map t.rectAt p span.start

/-- **The rectangles of a span.** A span from `start` to `stop` can be made exactly when
`start ≤ stop`, and is refused otherwise as an invalid state. A span that was made has
`stop - start` frames, which are exactly the frames it contains, in increasing order. Its
rectangles, computed one frame after another or in parallel however the span is cut, are the
`stop - start` rectangles of the frames `start, start + 1, …, stop - 1`, in that order. -/
theorem boxes_in_frame_order (start stop : Nat) :
    ((∃ span, FrameSpan.make start stop = .ok span) ↔ start ≤ stop) ∧
    (stop < start → FrameSpan.make start stop = .error .reversedRange ∧
      TrackError.reversedRange.kind = .invalidState) ∧
    ∀ span, FrameSpan.make start stop = .ok span →
      span.length = stop - start ∧
      (∀ f, f ∈ span.frames ↔ span.contains f = true) ∧ span.frames.Pairwise (· < ·) ∧
      ∀ (parallel : Bool) (p : FrameSpan.Pieces span.length),
        (t.boxes span parallel p).length = stop - start ∧
        ∀ i < stop - start, (t.boxes span parallel p)[i]? = some (t.rectAt (start + i)) := by
  refine ⟨FrameSpan.exists_make_iff, fun h => ⟨FrameSpan.make_of_lt h, rfl⟩,
    fun span hspan => ?_⟩
  obtain ⟨rfl, rfl⟩ := FrameSpan.eq_of_make hspan
  refine ⟨rfl, FrameSpan.mem_frames_iff span, FrameSpan.frames_sorted span,
    fun parallel p => ?_⟩
  rw [boxes_eq_rects]
  exact ⟨length_rects t span, fun i hi => getElem?_rects t span hi⟩

end Track

end RegionTrack

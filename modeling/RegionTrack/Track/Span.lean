import RegionTrack.Track

/-!
# Rectangles over a span of frames

A track gives the rectangles of the frames of a span either one frame after another or in
parallel. A parallel run cuts the span into pieces, cutting pieces again as the runtime sees fit;
each piece maps its own frames, and the results of the pieces are joined in the order of their
frames. Where the cuts fall is the runtime's choice, so it is a parameter of the parallel run:
`FrameSpan.Pieces n` is one way of cutting `n` consecutive frames, and its type makes the pieces
add up to the `n` frames.
-/

namespace RegionTrack

/-- A way to cut `n` consecutive frames into pieces: whole, or cut into a first piece of `m`
frames and a rest of `n` frames, each of which may be cut again. -/
inductive FrameSpan.Pieces : Nat → Type where
  | whole (n : Nat) : Pieces n
  | cut {m n : Nat} (first : Pieces m) (rest : Pieces n) : Pieces (m + n)

namespace FrameSpan.Pieces

/-- The results of `g` on the frames from `start` on, as a run cut into the pieces `p` computes
them: a whole piece maps its frames in order, and a cut joins the results of its first piece
before those of its rest, which starts `m` frames later. -/
def collect {α : Type} (g : Nat → α) : {n : Nat} → Pieces n → Nat → List α
  | _, .whole n, start => (List.range' start n).map g
  | _, @cut m _ first rest, start => first.collect g start ++ rest.collect g (start + m)

end FrameSpan.Pieces

namespace Track

/-- The rectangles of the frames of a span, in frame order: computed one frame after another, or,
when `parallel`, in the pieces `p` the runtime cuts the span into. -/
def boxes (t : Track) (span : FrameSpan) (parallel : Bool) (p : FrameSpan.Pieces span.length) :
    List Rect :=
  if parallel then p.collect t.rectAt span.start else t.rects span

end Track

end RegionTrack

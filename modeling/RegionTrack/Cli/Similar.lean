/-!
# Similar names

When a name on the command line is unknown, the names that are similar to it are offered
instead. Similarity is the Jaro similarity of the two names as character lists: characters
match when they are equal and at most `max(|a|, |b|) / 2 - 1` positions apart, each character
matching at most once, first come first served; with `m` matches and `t` half-transpositions
(matched characters that are out of order, halved), the similarity is
`(m / |a| + m / |b| + (m - t) / m) / 3`, and `0` without matches. Two empty names are fully
similar.

A name is offered when its similarity is above `0.7`; offers are ordered by similarity, the
most similar last, names of equal similarity in the order given.
-/

namespace RegionTrack.Cli

/-- Marks the first unmarked position `j` with `lo ≤ j < hi` where `b` holds `c`; gives the
marks and whether one was made. -/
def markMatch (b : List Char) (c : Char) (lo hi : Nat) (marks : List Bool) : List Bool × Bool :=
  match ((List.range hi).filter fun j => lo ≤ j && b[j]? = some c && marks[j]? = some false).head? with
  | some j => (marks.set j true, true)
  | none => (marks, false)

/-- The marks of `a` and `b` after matching `a` from position `i` on. -/
def matchFrom (b : List Char) (range : Nat) :
    List Char → Nat → List Bool × List Bool → List Bool × List Bool
  | [], _, acc => acc
  | c :: rest, i, (am, bm) =>
    let lo := i - range
    let hi := min b.length (i + range + 1)
    let (bm', hit) := markMatch b c lo hi bm
    matchFrom b range rest (i + 1) (am ++ [hit], bm')

/-- The characters at marked positions. -/
def marked (s : List Char) (marks : List Bool) : List Char :=
  (s.zip marks).filterMap fun (c, m) => if m then some c else none

/-- The Jaro similarity of two names. -/
def jaro (a b : String) : Float :=
  let a := a.toList
  let b := b.toList
  if a.isEmpty && b.isEmpty then 1.0
  else if a.isEmpty || b.isEmpty then 0.0
  else
    let range := max a.length b.length / 2 - 1
    let (am, bm) := matchFrom b range a 0 ([], List.replicate b.length false)
    let ma := marked a am
    let mb := marked b bm
    let m := ma.length
    let t := ((ma.zip mb).filter fun (x, y) => x != y).length / 2
    if m = 0 then 0.0
    else
      let mf := Float.ofNat m
      (mf / Float.ofNat a.length + mf / Float.ofNat b.length + Float.ofNat (m - t) / mf) / 3.0

/-- Inserts into a list ordered by similarity, after the entries of equal similarity. -/
def insertBySimilarity (x : Float × String) : List (Float × String) → List (Float × String)
  | [] => [x]
  | y :: ys => if x.1 < y.1 then x :: y :: ys else y :: insertBySimilarity x ys

/-- The names similar to `v`, the most similar last. -/
def similarNames (v : String) (names : List String) : List String :=
  let scored := names.filterMap fun n =>
    let s := jaro v n
    if s > 0.7 then some (s, n) else none
  (scored.foldl (fun acc x => insertBySimilarity x acc) []).map (·.2)

end RegionTrack.Cli

import RegionTrack.Rect
import RegionTrack.Time
import RegionTrack.Keyed

/-!
# Timelines of rectangles

A timeline stores rectangles under time keys (`TimeKey`): a finite map kept as a list in
strictly increasing key order. Every query is by the key of a time, so `-0.0` and `0.0` find
the same entry.

The main query is `bracket`: where a time falls among the stored ones. It is `exact` on a
stored key, `clamped` to the first or last rectangle outside the stored keys, `between` two
neighbouring entries inside them, and `empty` when nothing is stored. `Bracket.resolve` turns a
bracket into a rectangle, moving linearly between the two neighbours.
-/

namespace RegionTrack

/-- The rank of the key of a stored entry. -/
def Timeline.entryRank (e : TimeKey × Rect) : Nat := TimeKey.rank e.1.secs

/-- Rectangles under time keys, in strictly increasing key order. -/
structure Timeline where
  entries : List (TimeKey × Rect)
  sorted : Keyed.Sorted Timeline.entryRank entries

/-- The timeline with nothing stored. -/
def Timeline.empty : Timeline := ⟨[], Keyed.sorted_nil⟩

instance : EmptyCollection Timeline := ⟨Timeline.empty⟩

instance : Inhabited Timeline := ⟨Timeline.empty⟩

/-- Where a time falls among the keys of a timeline. -/
inductive Bracket where
  /-- Nothing is stored. -/
  | empty
  /-- A rectangle is stored under the time's key. -/
  | exact (r : Rect)
  /-- The time is before the first or after the last key; the rectangle there. -/
  | clamped (r : Rect)
  /-- The time is between the neighbouring entries `(t1, left)` and `(t2, right)`. -/
  | between (t1 : Float) (left : Rect) (t2 : Float) (right : Rect)

namespace Timeline

/-- The rank of a time's key. -/
def rankOf (t : Float) : Nat := TimeKey.rank (TimeKey.ofTime t).secs

/-- The rectangle under the key of `t`. -/
def get? (tl : Timeline) (t : Float) : Option Rect :=
  (Keyed.find? entryRank (rankOf t) tl.entries).map (·.2)

/-- Whether a rectangle is stored under the key of `t`. -/
def contains (tl : Timeline) (t : Float) : Bool := (tl.get? t).isSome

/-- Stores `r` under the key of `t`; gives the rectangle it replaces. -/
def insert (tl : Timeline) (t : Float) (r : Rect) : Option Rect × Timeline :=
  (tl.get? t, ⟨Keyed.insert entryRank (TimeKey.ofTime t, r) tl.entries,
    Keyed.sorted_insert (TimeKey.ofTime t, r) tl.sorted⟩)

/-- Removes the entry under the key of `t`; gives its rectangle. -/
def remove (tl : Timeline) (t : Float) : Option Rect × Timeline :=
  (tl.get? t, ⟨Keyed.erase entryRank (rankOf t) tl.entries,
    Keyed.sorted_erase (rankOf t) tl.sorted⟩)

/-- The number of entries. -/
def size (tl : Timeline) : Nat := tl.entries.length

/-- Whether nothing is stored. -/
def isEmpty (tl : Timeline) : Bool := tl.entries.isEmpty

/-- The entries as times and rectangles, in key order. -/
def toList (tl : Timeline) : List (Float × Rect) := tl.entries.map fun (k, r) => (k.secs, r)

/-- The first and last stored times. -/
def span? (tl : Timeline) : Option (Float × Float) :=
  match tl.entries.head?, tl.entries.getLast? with
  | some (a, _), some (b, _) => some (a.secs, b.secs)
  | _, _ => none

/-- The entry with the greatest key at or below the key of `t`. -/
def atOrBefore? (tl : Timeline) (t : Float) : Option (Float × Rect) :=
  (tl.toList.filter fun e => TimeKey.rank e.1 ≤ rankOf t).getLast?

/-- The entry with the least key at or above the key of `t`. -/
def atOrAfter? (tl : Timeline) (t : Float) : Option (Float × Rect) :=
  tl.toList.find? fun e => rankOf t ≤ TimeKey.rank e.1

/-- Where `t` falls among the stored keys. -/
def bracket (tl : Timeline) (t : Float) : Bracket :=
  match tl.get? t with
  | some r => .exact r
  | none =>
    match tl.atOrBefore? t, tl.atOrAfter? t with
    | none, none => .empty
    | some (_, r), none => .clamped r
    | none, some (_, r) => .clamped r
    | some (t1, left), some (t2, right) => .between t1 left t2 right

end Timeline

/-- The rectangle a bracket gives at time `target`: none for an empty timeline, the stored
rectangle on a key or outside the keys, and the linear mix of the neighbours between them. -/
def Bracket.resolve (b : Bracket) (target : Float) : Option Rect :=
  match b with
  | .empty => none
  | .exact r | .clamped r => some r
  | .between t1 left t2 right => some (Rect.between t1 t2 left right target)

end RegionTrack

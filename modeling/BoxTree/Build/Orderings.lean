import BoxTree.Box

/-!
# Orderings

All triangles sorted along each of the three axes. Splitting a range at a place of one ordering
separates the same triangles in the other two and keeps them sorted, so nothing is sorted again.
-/

namespace BoxTree

structure Span where
  start : Nat
  stop : Nat
deriving DecidableEq

namespace Span

def length (s : Span) : Nat := s.stop - s.start

def cut (s : Span) (count : Nat) : Span × Span :=
  (⟨s.start, s.start + count⟩, ⟨s.start + count, s.stop⟩)

end Span

/-- Where a triangle belongs in an ordering: by its centroid, and by its index among equals. -/
structure CentroidKey (n : Nat) where
  place : Nat
  triangle : Fin n
deriving DecidableEq

namespace CentroidKey

variable {n : Nat}

def of (centroids : Vector (Vec3 Float32) n) (axis : Axis) (triangle : Fin n) : CentroidKey n :=
  ⟨Scalar.sortKey ((centroids.get triangle).get axis), triangle⟩

def le (a b : CentroidKey n) : Bool :=
  a.place < b.place || (a.place == b.place && decide (a.triangle ≤ b.triangle))

end CentroidKey

structure Orderings (n : Nat) where
  along : Vec3 (Array (Fin n))
  /-- The side of each triangle in the last partition that had it. -/
  inLeft : Vector Bool n
  /-- Room for the triangles of the right side while an ordering is separated. -/
  scratch : Array (Fin n)

/-- An ordering while it is separated: the triangles of the left side seen so far have moved to the
front, and those of the right side are put aside. -/
structure Separating (n : Nat) where
  ordering : Array (Fin n)
  /-- Where the next triangle of the left side goes. -/
  left : Nat
  aside : Array (Fin n)

def Separating.look {n : Nat} (inLeft : Vector Bool n) (s : Separating n) (place : Nat) : Separating n :=
  match s.ordering[place]? with
  | none => s
  | some i =>
    if inLeft.get i then { s with ordering := s.ordering.setIfInBounds s.left i, left := s.left + 1 }
    else { s with aside := s.aside.push i }

namespace Orderings

variable {n : Nat}

def ofCentroids (centroids : Vector (Vec3 Float32) n) : Orderings n where
  along := .ofFn fun axis =>
    (((List.finRange n).map (CentroidKey.of centroids axis)).mergeSort CentroidKey.le
      |>.map (·.triangle)).toArray
  inLeft := .replicate n false
  scratch := #[]

def slice (o : Orderings n) (axis : Axis) (span : Span) : List (Fin n) :=
  ((o.along.get axis).extract span.start span.stop).toList

def write (o : Orderings n) (axis : Axis) (span : Span) (triangles : List (Fin n)) : Orderings n :=
  let old := o.along.get axis
  let new := old.extract 0 span.start ++ triangles.toArray ++ old.extract span.stop old.size
  { o with along := o.along.set axis new }

def setSide (o : Orderings n) (left : Bool) (triangles : List (Fin n)) : Orderings n :=
  { o with inLeft := triangles.foldl (fun sides (i : Fin n) => sides.set i left i.isLt) o.inLeft }

def mark (o : Orderings n) (axis : Axis) (span : Span) (split : Nat) : Orderings n :=
  let triangles := o.slice axis span
  (o.setSide true (triangles.take split)).setSide false (triangles.drop split)

def sift (o : Orderings n) (axis : Axis) (span : Span) : Separating n :=
  (List.range' span.start span.length).foldl (Separating.look o.inLeft)
    ⟨o.along.get axis, span.start, o.scratch.take 0⟩

/-- Moves the triangles of the left side to the front of a span and the others behind them, each side
in its old order. If the number on the left is not the expected one, the others are not put back. -/
def separate (o : Orderings n) (axis : Axis) (span : Span) (split : Nat) :
    Except (Interrupted (Orderings n)) (Orderings n) :=
  let s := o.sift axis span
  let moved := { o with along := o.along.set axis s.ordering, scratch := s.aside }
  if s.left ≠ span.start + split then .error ⟨.unevenPartition, moved⟩
  else if s.left + s.aside.size ≠ span.stop then .error ⟨.outOfBounds, moved⟩
  else .ok (moved.write axis ⟨s.left, span.stop⟩ s.aside.toList)

def partition (o : Orderings n) (span : Span) (axis : Axis) (split : Nat) :
    Except (Interrupted (Orderings n)) (Orderings n) :=
  if span.length < split ∨ span.stop < span.start ∨ (o.along.get axis).size < span.stop then
    .error ⟨.outOfBounds, o⟩
  else
    (Axis.all.filter (· ≠ axis)).foldlM (fun o other => o.separate other span split)
      (o.mark axis span split)

end Orderings

end BoxTree

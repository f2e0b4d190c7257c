import BoxTree.Scalar
import BoxTree.Vec3

/-!
# Boxes

Axis aligned boxes. A box is empty when on some axis its lower corner is not at or below its upper
one. Coordinates that are not numbers never move a corner.
-/

namespace BoxTree
open Scalar

structure Box where
  lower : Vec3 Float32
  upper : Vec3 Float32
deriving DecidableEq

namespace Box

def empty : Box := ⟨.replicate infinity, .replicate negativeInfinity⟩

def insert (b : Box) (p : Vec3 Float32) : Box :=
  ⟨b.lower.zipWith minNum p, b.upper.zipWith maxNum p⟩

def union (a b : Box) : Box :=
  ⟨a.lower.zipWith minNum b.lower, a.upper.zipWith maxNum b.upper⟩

def ofPoints (points : List (Vec3 Float32)) : Box := points.foldl insert empty

def unionAll (boxes : List Box) : Box := boxes.foldl union empty

def isEmpty (b : Box) : Bool :=
  Axis.all.any fun axis => !decide (b.lower.get axis ≤ b.upper.get axis)

/-- Whether every point of the inner box lies in the outer one. An empty box lies in all boxes. -/
def contains (outer inner : Box) : Bool :=
  inner.isEmpty || Axis.all.all fun axis =>
    decide (outer.lower.get axis ≤ inner.lower.get axis) &&
      decide (inner.upper.get axis ≤ outer.upper.get axis)

def map (f : Vec3 Float32 → Vec3 Float32) (b : Box) : Box := ⟨f b.lower, f b.upper⟩

def zipWith (f : Vec3 Float32 → Vec3 Float32 → Vec3 Float32) (a b : Box) : Box :=
  ⟨f a.lower b.lower, f a.upper b.upper⟩

def size (b : Box) : Vec3 Float32 := b.upper - b.lower

def length (b : Box) (axis : Axis) : Float32 := b.upper.get axis - b.lower.get axis

def center (b : Box) : Vec3 Float32 := (b.lower + b.upper).scale 0.5

def longestAxis (b : Box) : Axis :=
  let second := if b.length .y > b.length .x then Axis.y else Axis.x
  if b.length .z > b.length second then .z else second

def surfaceArea (b : Box) : Float32 :=
  if b.isEmpty then 0
  else
    let s := b.size
    2 * (s.x * s.y + s.y * s.z + s.z * s.x)

def faceArea (b : Box) (axis : Axis) : Float32 :=
  if b.isEmpty then 0 else b.length axis.next * b.length axis.next.next

def facePerimeter (b : Box) (axis : Axis) : Float32 :=
  if b.isEmpty then 0 else 2 * (b.length axis.next + b.length axis.next.next)

/-- Area of the two faces perpendicular to an axis and of the band between them. As a real number it
is the surface area. -/
def surfaceAreaAlong (b : Box) (axis : Axis) : Float32 :=
  2 * b.faceArea axis + b.facePerimeter axis * maxNum (b.length axis) 0

end Box

end BoxTree

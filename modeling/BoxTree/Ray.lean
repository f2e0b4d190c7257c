import BoxTree.Fault
import BoxTree.Box

/-!
# Rays

Rays and their distances to boxes. A box is met by testing its three slabs one after the other.
-/

namespace BoxTree
open Scalar

structure Ray where
  origin : Vec3 Float32
  /-- The direction, of length one. -/
  direction : Vec3 Float32
  /-- The inverses of the components of the direction. Where an inverse is infinite it is the
  largest finite number of the same sign. -/
  inverse : Vec3 Float32
  /-- Hits nearer than this distance are ignored. -/
  minT : Float32

structure Interval where
  entry : Float32
  exit : Float32

def Interval.Nonempty (i : Interval) : Prop := i.entry ≤ i.exit

instance (i : Interval) : Decidable i.Nonempty := inferInstanceAs (Decidable (i.entry ≤ i.exit))

def Interval.nonempty? (i : Interval) : Option Interval := if i.Nonempty then some i else none

namespace Ray

def minLength : Float32 := 1e-9

def normalize? (v : Vec3 Float32) : Option (Vec3 Float32) :=
  if v.dot v > minLength * minLength then some (v.divide (v.dot v).sqrt) else none

def boundedInverse (a : Float32) : Float32 :=
  let inverse := 1 / a
  if inverse.isInf then if isNegative inverse then -largest else largest else inverse

def toward? (origin direction : Vec3 Float32) : Option Ray :=
  (normalize? direction).map fun d => ⟨origin, d, d.map boundedInverse, 0⟩

def toward (origin direction : Vec3 Float32) : Except Fault Ray :=
  match toward? origin direction with
  | some ray => .ok ray
  | none => .error .zeroDirection

def withMinT (ray : Ray) (minT : Float32) : Ray := { ray with minT := minT }

def pointAt (ray : Ray) (t : Float32) : Vec3 Float32 := ray.origin + ray.direction.scale t

/-- Distance to a plane perpendicular to an axis. A ray in the plane has every distance, which the
last argument stands for. -/
def planeDistance (ray : Ray) (axis : Axis) (plane unbounded : Float32) : Float32 :=
  if ray.direction.get axis == 0 && plane == ray.origin.get axis then unbounded
  else (plane - ray.origin.get axis) * ray.inverse.get axis

/-- Cuts an interval down to the part between the two planes of a box on an axis. Which of them is
the near one follows from the direction alone, so that a box without extent on the axis leaves an
empty interval. -/
def clipSlab (ray : Ray) (b : Box) (i : Interval) (axis : Axis) : Interval :=
  let (near, far) :=
    if isNegative (ray.inverse.get axis) then (b.upper.get axis, b.lower.get axis)
    else (b.lower.get axis, b.upper.get axis)
  ⟨maxNum i.entry (ray.planeDistance axis near negativeInfinity),
    minNum i.exit (ray.planeDistance axis far infinity)⟩

def clip? (ray : Ray) (b : Box) (tMin tMax : Float32) : Option Interval :=
  let i := Axis.all.foldl (ray.clipSlab b) ⟨tMin, tMax⟩
  Interval.nonempty? ⟨i.entry, widenFar i.exit⟩

end Ray

end BoxTree

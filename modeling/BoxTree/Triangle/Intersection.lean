import BoxTree.BitSet
import BoxTree.Lanes
import BoxTree.Ray
import BoxTree.Triangle

/-!
# Rays and triangles

The intersection of a line with the plane of a triangle, written once for single triangles and for
batches of four, and the tests built on it.
-/

namespace BoxTree

/-- The solution of `origin + distance * direction = base + u * edge1 + v * edge2`. It means
something only where the determinant is not zero. -/
structure PlaneCrossing (α : Type) where
  det : α
  distance : α
  u : α
  v : α

/-- Solves for the crossing by Cramer's rule, with the triple products shared. -/
@[specialize] def PlaneCrossing.solve {α : Type} [Lane α] (origin direction base edge1 edge2 : Vec3 α) :
    PlaneCrossing α :=
  let p := direction.cross edge2
  let det := edge1.dot p
  let inverse := Lane.one / det
  let s := origin - base
  let u := inverse * s.dot p
  let q := s.cross edge1
  let v := inverse * direction.dot q
  let distance := inverse * edge2.dot q
  ⟨det, distance, u, v⟩

@[specialize] def PlaneCrossing.accepted {α : Type} [Lane α] [OfNat α 0] [BEq α] [LE α] [DecidableLE α]
    (c : PlaneCrossing α) : Bool :=
  c.det != 0 && decide (0 ≤ c.u) && decide (0 ≤ c.v) && decide (c.u + c.v ≤ Lane.one)

structure TriangleHit where
  distance : Float32
  uv : Barycentric Float32

def Triangle.intersect? (t : Facet) (ray : Ray) : Option TriangleHit :=
  let c := PlaneCrossing.solve ray.origin ray.direction t.a (t.b - t.a) (t.c - t.a)
  if c.accepted then some ⟨c.distance, c.u, c.v⟩ else none

structure TriangleBatch where
  base : Vec3 (Lanes Float32)
  edge1 : Vec3 (Lanes Float32)
  edge2 : Vec3 (Lanes Float32)

namespace TriangleBatch

def ofTriangles (ts : Lanes Facet) : TriangleBatch where
  base := (ts.map (·.a)).gather
  edge1 := (ts.map fun t => t.b - t.a).gather
  edge2 := (ts.map fun t => t.c - t.a).gather

def crossings (batch : TriangleBatch) (ray : Ray) : PlaneCrossing (Lanes Float32) :=
  PlaneCrossing.solve (ray.origin.map .replicate) (ray.direction.map .replicate)
    batch.base batch.edge1 batch.edge2

def mask (c : PlaneCrossing (Lanes Float32)) : Lanes Bool :=
  Lanes.ofFn fun i =>
    (c.det.get i != 0) && decide (0 ≤ c.u.get i) && decide (0 ≤ c.v.get i) &&
      decide ((c.u + c.v).get i ≤ 1)

def hit (c : PlaneCrossing (Lanes Float32)) (i : Fin 4) : TriangleHit :=
  ⟨c.distance.get i, c.u.get i, c.v.get i⟩

def lanes (mask : Lanes Bool) : List (Fin 4) :=
  (BitSet.positions mask.bits).filterMap fun i => if h : i < 4 then some ⟨i, h⟩ else none

def intersect (batch : TriangleBatch) (ray : Ray) : List (Fin 4 × TriangleHit) :=
  let c := batch.crossings ray
  (lanes (mask c)).map fun i => (i, hit c i)

end TriangleBatch

end BoxTree

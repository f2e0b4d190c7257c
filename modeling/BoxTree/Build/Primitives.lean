import BoxTree.Source

/-!
# Primitives

What a build needs to know of each triangle: its box and its centroid.
-/

namespace BoxTree

structure Primitives (n : Nat) where
  boxes : Vector Box n
  centroids : Vector (Vec3 Float32) n
  bounds : Box

namespace Primitives

def ofSource (s : TriangleSource) : Primitives s.count :=
  let boxes := Vector.ofFn fun i => (s.triangle i).boundingBox
  { boxes
    centroids := Vector.ofFn fun i => (s.triangle i).centroid
    bounds := Box.unionAll boxes.toList }

variable {n : Nat}

def box (p : Primitives n) (i : Fin n) : Box := p.boxes.get i

def centroid (p : Primitives n) (i : Fin n) : Vec3 Float32 := p.centroids.get i

def boundsOf (p : Primitives n) (triangles : List (Fin n)) : Box :=
  Box.unionAll (triangles.map p.box)

def centroidBoundsOf (p : Primitives n) (triangles : List (Fin n)) : Box :=
  Box.ofPoints (triangles.map p.centroid)

def select (_ : Primitives n) (indices : List Nat) : Except Fault (List (Fin n)) :=
  indices.mapM fun i => if h : i < n then .ok ⟨i, h⟩ else .error .outOfBounds

end Primitives

end BoxTree

import BoxTree.Source

/-!
# Meshes

Triangles that share an array of positions.
-/

namespace BoxTree

inductive MeshError where
  | unreadable
  | malformed
  | vertexOutOfRange (triangle index vertexCount : Nat)
deriving DecidableEq

def MeshError.message? : MeshError → Option String
  | vertexOutOfRange triangle index vertexCount =>
    some s!"Triangle {triangle} references vertex {index}, but there are only {vertexCount}"
  | _ => none

structure Mesh where
  positions : Array (Vec3 Float32)
  triangles : Array (Triangle Nat)
  corner_lt : ∀ k (h : k < triangles.size), ∀ i ∈ triangles[k].toList, i < positions.size

namespace Mesh

def firstOutOfRange? (vertexCount : Nat) (triangles : Array (Triangle Nat)) : Option (Nat × Nat) :=
  triangles.toList.zipIdx.findSome? fun (t, k) =>
    (t.toList.find? (vertexCount ≤ ·)).map fun index => (k, index)

theorem corner_lt_of_firstOutOfRange? {vertexCount : Nat} {triangles : Array (Triangle Nat)}
    (none : firstOutOfRange? vertexCount triangles = none) (k : Nat) (h : k < triangles.size) :
    ∀ i ∈ triangles[k].toList, i < vertexCount := by
  intro i member
  have found := List.findSome?_eq_none_iff.mp none (triangles[k], k)
    (List.mem_zipIdx_iff_getElem?.mpr (by simp [h]))
  simp only [Option.map_eq_none_iff, List.find?_eq_none, decide_eq_true_eq, Nat.not_le] at found
  exact found i member

def ofArrays (positions : Array (Vec3 Float32)) (triangles : Array (Triangle Nat)) :
    Except MeshError Mesh :=
  match h : firstOutOfRange? positions.size triangles with
  | none => .ok ⟨positions, triangles, corner_lt_of_firstOutOfRange? h⟩
  | some (triangle, index) => .error (.vertexOutOfRange triangle index positions.size)

def position (m : Mesh) (k : Fin m.triangles.size) (i : Nat) (corner : i ∈ m.triangles[k].toList) :
    Vec3 Float32 :=
  have := m.corner_lt k k.isLt i corner
  m.positions[i]

def facet (m : Mesh) (k : Fin m.triangles.size) : Facet where
  a := m.position k m.triangles[k].a (by simp [Triangle.toList])
  b := m.position k m.triangles[k].b (by simp [Triangle.toList])
  c := m.position k m.triangles[k].c (by simp [Triangle.toList])

def source (m : Mesh) : TriangleSource := ⟨m.triangles.size, m.facet⟩

end Mesh

end BoxTree

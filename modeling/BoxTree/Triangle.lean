import BoxTree.Box
import BoxTree.Lanes

/-!
# Triangles

Triangles over any kind of corner: points, or indices of points.
-/

namespace BoxTree

structure Triangle (α : Type) where
  a : α
  b : α
  c : α
deriving DecidableEq

abbrev Facet := Triangle (Vec3 Float32)

namespace Triangle

variable {α β : Type}

def corner (t : Triangle α) : Fin 3 → α
  | 0 => t.a
  | 1 => t.b
  | 2 => t.c

def toList (t : Triangle α) : List α := [t.a, t.b, t.c]

def map (f : α → β) (t : Triangle α) : Triangle β := ⟨f t.a, f t.b, f t.c⟩

def centroid (t : Facet) : Vec3 Float32 := (t.a + t.b + t.c).divide 3

def boundingBox (t : Facet) : Box := Box.ofPoints t.toList

def edges (t : Facet) : Vec3 Float32 × Vec3 Float32 := (t.b - t.a, t.c - t.a)

def normal (t : Facet) : Vec3 Float32 := t.edges.1.cross t.edges.2

end Triangle

/-- Weights of the second and the third corner of a triangle. The first corner has the rest. -/
structure Barycentric (α : Type) where
  u : α
  v : α
deriving DecidableEq

def Barycentric.interpolate {α : Type} [Lane α] (w : Barycentric α) (t : Triangle (Vec3 α)) : Vec3 α :=
  t.a.scale (Lane.one - w.u - w.v) + t.b.scale w.u + t.c.scale w.v

end BoxTree

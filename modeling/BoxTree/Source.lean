import BoxTree.Triangle

/-!
# Triangle sources

Anything that has a number of triangles and knows each of them. Trees are built over a source.
-/

namespace BoxTree

structure TriangleSource where
  count : Nat
  triangle : Fin count → Facet

namespace TriangleSource

def ofArray (triangles : Array Facet) : TriangleSource := ⟨triangles.size, fun i => triangles[i]⟩

def triangle? (s : TriangleSource) (index : Nat) : Option Facet :=
  if h : index < s.count then some (s.triangle ⟨index, h⟩) else none

def toList (s : TriangleSource) : List Facet := List.ofFn s.triangle

end TriangleSource

end BoxTree

import BoxTree.Build.Primitives
import BoxTree.Proofs.Leaf

/-!
# Subtrees over triangles

What a build owes for the triangles that it is given: a subtree with all of them, with the boxes in
place, within the levels that are left, and with no more nodes and batches than there is room for.
-/

namespace BoxTree

structure Subtree.Holds (source : TriangleSource) (xs : List Nat) (levels : Nat) (s : Subtree) : Prop where
  present : s ≠ .missing
  triangles : s.triangles.Perm xs
  sound : s.Sound source
  height : s.height ≤ levels + 1
  fewNodes : s.nodes.length + 1 ≤ xs.length
  fewBatches : s.batches.length ≤ xs.length

variable {source : TriangleSource} {triangles xs ys : List Nat} {levels : Nat}

namespace Subtree

theorem Holds.perm {s : Subtree} (holds : s.Holds source xs levels) (same : xs.Perm ys) :
    s.Holds source ys levels where
  present := holds.present
  triangles := holds.triangles.trans same
  sound := holds.sound
  height := holds.height
  fewNodes := holds.fewNodes.trans_eq same.length_eq
  fewBatches := holds.fewBatches.trans_eq same.length_eq

theorem Holds.covered {s : Subtree} (holds : s.Holds source xs levels) :
    (source.boundsOf xs).Covers source s := by
  have contains : (source.boundsOf xs).contains (source.boundsOf s.triangles) = true :=
    Box.contains_unionAll_of_subset (List.map_subset _ holds.triangles.subset)
  cases s with
  | missing => exact absurd rfl holds.present
  | leaf range content => exact contains
  | inner index leftBox left rightBox right => exact contains

theorem holds_leaf (nonempty : triangles ≠ []) (nodup : triangles.Nodup) (first levels : Nat) :
    (leaf ⟨first, batchesFor triangles.length⟩ (Arena.pack triangles)).Holds source triangles levels := by
  obtain ⟨kept, padding⟩ := stripped_pack nonempty nodup
  have positive := List.length_pos_of_ne_nil nonempty
  constructor
  · exact nofun
  · rw [triangles_leaf, kept]
  · exact sound_leaf.2 padding
  · exact Nat.le_add_left 1 levels
  · exact positive
  · rw [batches, BatchRange.toList, List.length_range']
    exact (batchesFor_bounds positive).2

theorem holds_inner {left right : Subtree} (holdsLeft : left.Holds source xs levels)
    (holdsRight : right.Holds source ys levels) (parts : (xs ++ ys).Perm triangles) (index : Nat) :
    (inner index (source.boundsOf xs) left (source.boundsOf ys) right).Holds source triangles
      (levels + 1) := by
  have lengths := parts.length_eq
  rw [List.length_append] at lengths
  constructor
  · exact nofun
  · rw [triangles_inner]
    exact (holdsLeft.triangles.append holdsRight.triangles).trans parts
  · rw [sound_inner]
    exact ⟨⟨holdsLeft.covered, holdsLeft.sound⟩, holdsRight.covered, holdsRight.sound⟩
  · have heightLeft := holdsLeft.height
    have heightRight := holdsRight.height
    rw [height]
    omega
  · have fewLeft := holdsLeft.fewNodes
    have fewRight := holdsRight.fewNodes
    rw [nodes, List.length_cons, List.length_append]
    omega
  · have fewLeft := holdsLeft.fewBatches
    have fewRight := holdsRight.fewBatches
    rw [batches, List.length_append]
    omega

end Subtree

theorem Primitives.boundsOf_ofSource (triangles : List (Fin source.count)) :
    (ofSource source).boundsOf triangles = source.boundsOf (triangles.map Fin.val) := by
  have boxes (i : Fin source.count) : (ofSource source).box i = source.box i := by
    rw [TriangleSource.box_eq i.isLt]
    simp only [box, ofSource, Vector.get, Vector.toArray_ofFn, Array.getElem_ofFn]
    rfl
  rw [boundsOf, TriangleSource.boundsOf, List.map_map]
  congr 1
  exact List.map_congr_left fun i _ => boxes i

end BoxTree

import BoxTree.Proofs.Arena
import BoxTree.Proofs.Build.Decision
import BoxTree.Proofs.Build.Subtree

/-!
# Arenas with room

A subtree over some triangles needs no more nodes and no more batches than there are triangles. While
there is room for that many, leaves and nodes can be added.
-/

namespace BoxTree.Arena

structure Room (a : Arena) (count : Nat) : Prop where
  nodes : a.nodes.size + count ≤ maxIndex + 1
  batches : a.batches.size + count ≤ maxIndex + 1

def reserve (a : Arena) : Arena := { a with nodes := a.nodes.push .empty }

variable {a a₁ a₂ before : Arena} {count others : Nat} {target : Target} {s : Subtree}

theorem size_reserve (a : Arena) : a.reserve.nodes.size = a.nodes.size + 1 := Array.size_push _

namespace Room

theorem congr (room : a.Room count) (nodes : a₁.nodes = a.nodes)
    (batches : a₁.batches = a.batches) : a₁.Room count where
  nodes := by
    rw [nodes]
    exact room.nodes
  batches := by
    rw [batches]
    exact room.batches

theorem node_le (room : a.Room count) (some : 1 ≤ count) : a.nodes.size ≤ maxIndex := by
  have nodes := room.nodes
  omega

theorem left (room : a.Room (count + others)) (some : 1 ≤ others) : a.reserve.Room count := by
  have nodes := room.nodes
  have batches := room.batches
  constructor
  · rw [size_reserve]
    omega
  · simp only [reserve]
    omega

theorem right (room : a.Room (others + count)) (adds : a.reserve.Adds a₁ target s)
    (fewNodes : s.nodes.length + 1 ≤ others) (fewBatches : s.batches.length ≤ others) :
    a₁.Room count := by
  have nodes := room.nodes
  have batches := room.batches
  have nodeCount := adds.nodeCount
  have batchCount := adds.batchCount
  rw [size_reserve] at nodeCount
  simp only [reserve] at batchCount
  constructor <;> omega

end Room

structure Grows (source : TriangleSource) (before after : Arena) (triangles : List Nat) (levels : Nat)
    (link : Link) (below : Subtree) : Prop where
  adds : before.Adds after link.target below
  holds : below.Holds source triangles levels

variable {source : TriangleSource} {xs ys triangles : List Nat} {levels : Nat}
  {link leftLink rightLink : Link} {leftBelow rightBelow : Subtree}

theorem Room.right_of_grows (room : a.Room (xs.length + count))
    (grows : a.reserve.Grows source a₁ xs levels link s) : a₁.Room count :=
  room.right grows.adds grows.holds.fewNodes grows.holds.fewBatches

theorem grows_leaf (room : a.Room triangles.length) (storable : Storable triangles.length levels)
    (nodup : triangles.Nodup) (few : triangles.length ≤ maxLeafTriangles) (depth : Nat)
    (reason : LeafReason) :
    ∃ link after range content, a.addLeaf triangles depth reason = .ok (link, after) ∧
      a.Grows source after triangles levels link (.leaf range content) := by
  have nonempty : triangles ≠ [] := List.ne_nil_of_length_pos storable.positive
  obtain ⟨positive, less⟩ := batchesFor_bounds storable.positive
  have inside : a.batches.size + batchesFor triangles.length ≤ maxIndex + 1 :=
    (Nat.add_le_add_left less _).trans room.batches
  obtain ⟨link, after, added, adds, _⟩ := addLeaf_ok positive (batchesFor_le few) inside depth reason
  exact ⟨link, after, _, _, added, adds, Subtree.holds_leaf nonempty nodup a.batches.size levels⟩

theorem grows_inner (nodes : a.nodes = before.nodes) (batches : a.batches = before.batches)
    (growsLeft : a.reserve.Grows source a₁ xs levels leftLink leftBelow)
    (growsRight : a₁.Grows source a₂ ys levels rightLink rightBelow)
    (parts : (xs ++ ys).Perm triangles) (refers : link.target = .inner a.nodes.size) :
    before.Grows source
      (a₂.setNode a.nodes.size ⟨⟨source.boundsOf xs, leftLink⟩, ⟨source.boundsOf ys, rightLink⟩⟩)
      triangles (levels + 1) link
      (.inner a.nodes.size (source.boundsOf xs) leftBelow (source.boundsOf ys) rightBelow) where
  adds := by
    rw [refers]
    exact adds_of_same (adds_below_node growsLeft.adds growsRight.adds _ _) nodes.symm batches.symm rfl
      rfl
  holds := Subtree.holds_inner growsLeft.holds growsRight.holds parts _

end BoxTree.Arena

import BoxTree.Proofs.Append

/-!
# Shapes of subtrees

The shape of a subtree is what is left of it when the places of its nodes and batches are forgotten:
the boxes of the children, and the batches of each leaf.
-/

namespace BoxTree

inductive Shape where
  | missing
  | leaf (content : List Batch)
  | inner (leftBox : Box) (left : Shape) (rightBox : Box) (right : Shape)

namespace Shape

def nodeCount : Shape → Nat
  | missing => 0
  | leaf _ => 0
  | inner _ left _ right => left.nodeCount + right.nodeCount + 1

def batchCount : Shape → Nat
  | missing => 0
  | leaf content => content.length
  | inner _ left _ right => left.batchCount + right.batchCount

def children : Shape → List (Box × Shape)
  | missing => []
  | leaf _ => []
  | inner leftBox left rightBox right =>
    (leftBox, left) :: (rightBox, right) :: (left.children ++ right.children)

def leaves : Shape → List (List Nat)
  | missing => []
  | leaf content => [content.flatMap Lanes.toList]
  | inner _ left _ right => left.leaves ++ right.leaves

def triangles (shape : Shape) : List Nat := shape.leaves.flatMap stripped

def leafDepths : (depth : Nat) → Shape → List Nat
  | _, missing => []
  | depth, leaf _ => [depth]
  | depth, inner _ left _ right => left.leafDepths (depth + 1) ++ right.leafDepths (depth + 1)

@[simp] theorem triangles_leaf (content : List Batch) :
    (leaf content).triangles = stripped (content.flatMap Lanes.toList) := by
  simp only [triangles, leaves, List.flatMap_cons, List.flatMap_nil, List.append_nil]

@[simp] theorem triangles_inner (leftBox rightBox : Box) (left right : Shape) :
    (inner leftBox left rightBox right).triangles = left.triangles ++ right.triangles := by
  simp only [triangles, leaves, List.flatMap_append]

theorem length_leafDepths (shape : Shape) (depth : Nat) :
    (shape.leafDepths depth).length = shape.leaves.length := by
  induction shape generalizing depth with
  | missing => rfl
  | leaf content => rfl
  | inner leftBox left rightBox right ihLeft ihRight =>
      rw [leafDepths, List.length_append, ihLeft, ihRight, leaves, List.length_append]

def rooted (bounds : Box) : Shape → Shape
  | inner leftBox left rightBox right => inner leftBox left rightBox right
  | single => inner bounds single .empty missing

theorem leaves_rooted (shape : Shape) (bounds : Box) : (shape.rooted bounds).leaves = shape.leaves := by
  cases shape with
  | missing => rfl
  | leaf content => rfl
  | inner leftBox left rightBox right => rfl

end Shape

namespace Subtree

def shape : Subtree → Shape
  | missing => .missing
  | leaf _ content => .leaf content
  | inner _ leftBox left rightBox right => .inner leftBox left.shape rightBox right.shape

theorem shape_shift (s : Subtree) (nodes batches : Nat) : (s.shift nodes batches).shape = s.shape := by
  induction s with
  | missing => rfl
  | leaf range content => rfl
  | inner index leftBox left rightBox right ihLeft ihRight =>
      rw [shift, shape, ihLeft, ihRight, shape]

theorem length_nodes (s : Subtree) : s.nodes.length = s.shape.nodeCount := by
  induction s with
  | missing => rfl
  | leaf range content => rfl
  | inner index leftBox left rightBox right ihLeft ihRight =>
      rw [nodes, List.length_cons, List.length_append, ihLeft, ihRight, shape, Shape.nodeCount]

theorem leaves_shape (s : Subtree) : s.shape.leaves = s.leaves := by
  induction s with
  | missing => rfl
  | leaf range content => rfl
  | inner index leftBox left rightBox right ihLeft ihRight =>
      rw [shape, Shape.leaves, ihLeft, ihRight, leaves]

theorem triangles_shape (s : Subtree) : s.shape.triangles = s.triangles := by
  rw [Shape.triangles, leaves_shape, triangles]

theorem children_shape (s : Subtree) :
    s.shape.children = s.children.map fun child => (child.1, child.2.shape) := by
  induction s with
  | missing => rfl
  | leaf range content => rfl
  | inner index leftBox left rightBox right ihLeft ihRight =>
      rw [shape, Shape.children, ihLeft, ihRight, children, List.map_cons, List.map_cons,
        List.map_append]

theorem shape_eq_missing {s : Subtree} : s.shape = .missing ↔ s = .missing := by
  cases s <;> simp [shape]

end Subtree

variable {nodes : Array Node} {batches : Array Batch} {target : Target} {below : Subtree}

theorem Unfolds.unique {below' : Subtree} (unfolds : Unfolds nodes batches target below)
    (unfolds' : Unfolds nodes batches target below') : below' = below := by
  induction unfolds generalizing below' with
  | missing => cases unfolds' with | missing => rfl
  | leaf inside =>
      cases unfolds' with
      | leaf inside' =>
          rw [List.map_injective_iff.2 (Option.some_injective _) (inside'.symm.trans inside)]
  | inner there _ _ ihLeft ihRight =>
      cases unfolds' with
      | inner there' unfoldsLeft unfoldsRight =>
          cases there.symm.trans there'
          rw [ihLeft unfoldsLeft, ihRight unfoldsRight]

theorem Unfolds.length_batches (unfolds : Unfolds nodes batches target below) :
    below.batches.length = below.shape.batchCount := by
  induction unfolds with
  | missing => rfl
  | leaf inside =>
      have lengths := congrArg List.length inside
      rwa [List.length_map, List.length_map] at lengths
  | inner there _ _ ihLeft ihRight =>
      rw [Subtree.batches, List.length_append, ihLeft, ihRight, Subtree.shape, Shape.batchCount]

namespace Arena

def Shows (a : Arena) (target : Target) (shape : Shape) : Prop :=
  ∃ below, Unfolds a.nodes a.batches target below ∧ below.shape = shape

structure RoomFor (a : Arena) (shape : Shape) : Prop where
  nodes : a.nodes.size + shape.nodeCount ≤ maxIndex + 1
  batches : a.batches.size + shape.batchCount ≤ maxIndex + 1

structure Gains (before after : Arena) (target : Target) (shape : Shape) (counters : BuildStatistics) :
    Prop where
  adds : ∃ below, before.Adds after target below ∧ below.shape = shape
  counted : after.statistics = before.statistics.merge counters

variable {a a₁ : Arena} {shape : Shape} {counters : BuildStatistics}

theorem Gains.sizes (gains : a.Gains a₁ target shape counters) :
    a₁.nodes.size = a.nodes.size + shape.nodeCount ∧
      a₁.batches.size = a.batches.size + shape.batchCount := by
  obtain ⟨below, adds, rfl⟩ := gains.adds
  rw [adds.nodeCount, adds.batchCount, below.length_nodes, adds.unfolds.length_batches]
  exact ⟨rfl, rfl⟩

end Arena

end BoxTree

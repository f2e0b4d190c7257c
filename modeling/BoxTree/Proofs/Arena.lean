import BoxTree.Proofs.Except
import BoxTree.Proofs.Leaf

/-!
# Growing arenas

Building adds subtrees to an arena: the nodes and batches of a subtree follow those that were there
before, which stay as they were.
-/

namespace BoxTree

namespace Arena

structure Adds (before after : Arena) (target : Target) (s : Subtree) : Prop where
  unfolds : Unfolds after.nodes after.batches target s
  nodes : s.nodes = List.range' before.nodes.size s.nodes.length
  batches : s.batches = List.range' before.batches.size s.batches.length
  nodeCount : after.nodes.size = before.nodes.size + s.nodes.length
  batchCount : after.batches.size = before.batches.size + s.batches.length
  keepsNodes : ∀ i < before.nodes.size, after.nodes[i]? = before.nodes[i]?
  keepsBatches : ∀ i < before.batches.size, after.batches[i]? = before.batches[i]?

variable {a a₁ a₂ a₃ : Arena}

theorem adds_of_same {before before' after after' : Arena} {target : Target} {s : Subtree}
    (adds : before.Adds after target s) (nodes : before'.nodes = before.nodes)
    (batches : before'.batches = before.batches) (nodes' : after'.nodes = after.nodes)
    (batches' : after'.batches = after.batches) : before'.Adds after' target s := by
  obtain ⟨unfolds, inOrder, batchesInOrder, nodeCount, batchCount, keepsNodes, keepsBatches⟩ := adds
  constructor <;> simp only [nodes, batches, nodes', batches'] <;> assumption

theorem pushNode_ok (room : a.nodes.size ≤ maxIndex) (node : Node) :
    a.pushNode node = .ok (a.nodes.size, { a with nodes := a.nodes.push node }) := if_pos room

theorem getElem?_appendList (batches : Array Batch) (added : List Batch) (i : Nat) :
    (batches ++ added)[i]? = (batches.toList ++ added)[i]? := by
  rw [← Array.getElem?_toList, Array.toList_appendList]

theorem size_appendList (batches : Array Batch) (added : List Batch) :
    (batches ++ added).size = batches.size + added.length := by
  rw [← Array.length_toList, Array.toList_appendList, List.length_append, Array.length_toList]

theorem map_appendList (batches : Array Batch) (added : List Batch) :
    (List.range' batches.size added.length).map ((batches ++ added)[·]?) = added.map some := by
  apply List.ext_getElem
  · simp only [List.length_map, List.length_range']
  · intro i _ bound
    simp only [List.length_map] at bound
    simp [getElem?_appendList, bound]

theorem push_appendList (batches : Array Batch) (batch : Batch) (rest : List Batch) :
    batches.push batch ++ rest = batches ++ (batch :: rest) := by
  apply Array.toList_inj.1
  rw [Array.toList_appendList, Array.toList_appendList, Array.toList_push, List.append_assoc,
    List.singleton_append]

/-! ## Leaves -/

theorem pushBatches_ok {added : List Batch} (room : a.batches.size + added.length ≤ maxIndex + 1) :
    a.pushBatches added = .ok { a with batches := a.batches ++ added } := by
  induction added generalizing a with
  | nil => rfl
  | cons batch rest ih =>
      rw [List.length_cons] at room
      rw [pushBatches, if_pos (by omega), ih (by simp only [Array.size_push]; omega)]
      simp only [push_appendList]

theorem room_of_pushBatches {added : List Batch} {stored : Arena}
    (inside : a.batches.size ≤ maxIndex + 1) (pushed : a.pushBatches added = .ok stored) :
    a.batches.size + added.length ≤ maxIndex + 1 := by
  induction added generalizing a with
  | nil => exact inside
  | cons batch rest ih =>
      rw [pushBatches] at pushed
      split at pushed
      · have later := ih (by simp only [Array.size_push]; omega) pushed
        simp only [Array.size_push, List.length_cons] at later ⊢
        omega
      · cases pushed

theorem storeLeaf_ok {triangles : List Nat} (some : 0 < batchesFor triangles.length)
    (few : batchesFor triangles.length ≤ maxLeafBatches)
    (room : a.batches.size + batchesFor triangles.length ≤ maxIndex + 1) (depth : Nat)
    (reason : LeafReason) :
    ∃ link, link.target = .leaf ⟨a.batches.size, batchesFor triangles.length⟩ ∧
      a.storeLeaf triangles depth reason = .ok (link, { a with
        batches := a.batches ++ pack triangles
        statistics := a.statistics.recordLeaf depth triangles.length reason }) := by
  obtain ⟨link, made, refers⟩ := @Link.toLeaf_ok ⟨a.batches.size, batchesFor triangles.length⟩ some few
    (by simp only; omega)
  refine ⟨link, refers, ?_⟩
  have fits : ¬(batchesFor triangles.length = 0 ∨ maxLeafBatches < batchesFor triangles.length) := by
    omega
  have inside : ¬maxIndex < a.batches.size := by omega
  have pushed := @pushBatches_ok a (pack triangles) (by rw [length_pack]; exact room)
  simp only [storeLeaf, if_neg fits, if_neg inside, pushed, ok_bind, made]
  rfl

theorem addLeaf_ok {triangles : List Nat} (some : 0 < batchesFor triangles.length)
    (few : batchesFor triangles.length ≤ maxLeafBatches)
    (room : a.batches.size + batchesFor triangles.length ≤ maxIndex + 1) (depth : Nat)
    (reason : LeafReason) :
    ∃ link a', a.addLeaf triangles depth reason = .ok (link, a') ∧
      a.Adds a' link.target (.leaf ⟨a.batches.size, batchesFor triangles.length⟩ (pack triangles)) ∧
        a'.statistics = a.statistics.recordLeaf depth triangles.length reason := by
  obtain ⟨link, refers, stored⟩ := storeLeaf_ok some few room depth reason
  refine ⟨link, _, mapError_eq_ok.2 stored, ?_, rfl⟩
  rw [refers]
  constructor
  · apply Unfolds.leaf
    rw [BatchRange.toList, ← length_pack]
    exact map_appendList a.batches (pack triangles)
  · rfl
  · simp [Subtree.batches, BatchRange.toList]
  · rfl
  · rw [size_appendList, length_pack, Subtree.batches, BatchRange.toList, List.length_range']
  · exact fun i _ => rfl
  · intro i bound
    rw [getElem?_appendList, List.getElem?_append_left bound, Array.getElem?_toList]

/-! ## Nodes -/

theorem adds_below_node {leftLink rightLink : Link} {left right : Subtree}
    (addsLeft : ({ a with nodes := a.nodes.push .empty } : Arena).Adds a₂ leftLink.target left)
    (addsRight : a₂.Adds a₃ rightLink.target right) (leftBox rightBox : Box) :
    a.Adds (a₃.setNode a.nodes.size ⟨⟨leftBox, leftLink⟩, ⟨rightBox, rightLink⟩⟩)
      (.inner a.nodes.size) (.inner a.nodes.size leftBox left rightBox right) := by
  have pushed : (a.nodes.push Node.empty).size = a.nodes.size + 1 := Array.size_push _
  have leftNodes := addsLeft.nodes
  have leftCount := addsLeft.nodeCount
  have leftBatches := addsLeft.batches
  have leftBatchCount := addsLeft.batchCount
  simp only [pushed] at leftNodes leftCount leftBatches leftBatchCount
  have rightNodes := addsRight.nodes
  have rightCount := addsRight.nodeCount
  have rightBatches := addsRight.batches
  have rightBatchCount := addsRight.batchCount
  rw [leftCount] at rightNodes rightCount
  rw [leftBatchCount] at rightBatches rightBatchCount
  have elsewhere (i : Nat) (other : a.nodes.size ≠ i) (node : Node) :
      (a₃.setNode a.nodes.size node).nodes[i]? = a₃.nodes[i]? := by
    rw [setNode, Array.getElem?_setIfInBounds_ne other]
  have there (node : Node) : (a₃.setNode a.nodes.size node).nodes[a.nodes.size]? = some node := by
    rw [setNode, Array.getElem?_setIfInBounds_self_of_lt (by omega)]
  -- The node is written after everything below it. Both sides have other nodes, so they stay.
  constructor
  · apply Unfolds.inner (there _)
    · apply addsLeft.unfolds.congr
      · intro i member
        have bound := addsLeft.unfolds.node_lt i member
        rw [leftNodes, List.mem_range'_1] at member
        rw [elsewhere i (by omega), addsRight.keepsNodes i bound]
      · exact fun i member => addsRight.keepsBatches i (addsLeft.unfolds.batch_lt i member)
    · apply addsRight.unfolds.congr
      · intro i member
        rw [rightNodes, List.mem_range'_1] at member
        exact elsewhere i (by omega) _
      · exact fun i _ => rfl
  · simp only [Subtree.nodes, List.length_cons, List.length_append]
    rw [List.range'_succ, leftNodes, rightNodes]
    simp only [List.length_range']
    rw [List.range'_append_1]
  · simp only [Subtree.batches, List.length_append]
    rw [leftBatches, rightBatches]
    simp only [List.length_range']
    rw [List.range'_append_1]
  · simp only [setNode, Array.size_setIfInBounds, Subtree.nodes, List.length_cons, List.length_append]
    omega
  · simp only [setNode, Subtree.batches, List.length_append]
    omega
  · intro i bound
    have keepsLeft := addsLeft.keepsNodes i (by simp only [pushed]; omega)
    rw [elsewhere i (by omega), addsRight.keepsNodes i (by omega), keepsLeft,
      Array.getElem?_eq_getElem bound]
    exact Array.getElem?_push_lt bound
  · intro i bound
    have keepsRight := addsRight.keepsBatches i (by omega)
    have keepsLeft := addsLeft.keepsBatches i bound
    exact keepsRight.trans keepsLeft

end Arena

end BoxTree

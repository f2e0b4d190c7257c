import BoxTree.Proofs.Subtree

/-!
# Numbers of nodes

Where nodes are numbered as the tree is walked from its root, a left child follows its parent. Where
subtrees were numbered on their own and moved up, a node still comes before all nodes below it.
-/

namespace BoxTree

namespace Subtree

def Ascending : Subtree → Prop
  | missing => True
  | leaf _ _ => True
  | inner index _ left _ right =>
    (∀ i ∈ left.nodes ++ right.nodes, index < i) ∧ left.Ascending ∧ right.Ascending

theorem ascending_of_increasing {s : Subtree} (increasing : s.nodes.Pairwise (· < ·)) : s.Ascending := by
  induction s with
  | missing => exact True.intro
  | leaf range content => exact True.intro
  | inner index leftBox left rightBox right ihLeft ihRight =>
      rw [nodes, List.pairwise_cons, List.pairwise_append] at increasing
      obtain ⟨below, inLeft, inRight, _⟩ := increasing
      exact ⟨below, ihLeft inLeft, ihRight inRight⟩

def Consecutive (s : Subtree) (first : Nat) : Prop := s.nodes = List.range' first s.nodes.length

theorem consecutive_inner {index first : Nat} {leftBox rightBox : Box} {left right : Subtree} :
    (inner index leftBox left rightBox right).Consecutive first ↔
      index = first ∧ left.Consecutive (first + 1) ∧
        right.Consecutive (first + 1 + left.nodes.length) := by
  unfold Consecutive
  rw [nodes, List.length_cons, List.range'_succ, List.length_append, ← List.range'_append_1,
    List.cons.injEq]
  refine and_congr_right fun _ => ⟨fun same => ?_, fun both => ?_⟩
  · exact List.append_inj same (List.length_range' ..).symm
  · rw [← both.1, ← both.2]

end Subtree

variable {nodes : Array Node} {batches : Array Batch} {s : Subtree}

theorem Unfolds.eq_inner {index : Nat} (unfolds : Unfolds nodes batches (.inner index) s) :
    ∃ leftBox left rightBox right, s = .inner index leftBox left rightBox right := by
  cases unfolds with
  | inner there unfoldsLeft unfoldsRight => exact ⟨_, _, _, _, rfl⟩

theorem Unfolds.index_mem {index : Nat} (unfolds : Unfolds nodes batches (.inner index) s) :
    index ∈ s.nodes := by
  obtain ⟨leftBox, left, rightBox, right, rfl⟩ := unfolds.eq_inner
  exact List.mem_cons_self

theorem Unfolds.lt_child {target : Target} (unfolds : Unfolds nodes batches target s)
    (ascending : s.Ascending) :
    ∀ i ∈ s.nodes, ∀ node, nodes[i]? = some node →
      ∀ side j, (node.child side).link.target = .inner j → i < j := by
  induction unfolds with
  | missing => exact nofun
  | leaf inside => exact nofun
  | @inner index found left right there unfoldsLeft unfoldsRight ihLeft ihRight =>
      obtain ⟨below, ascendingLeft, ascendingRight⟩ := ascending
      rw [Subtree.nodes, List.forall_mem_cons, List.forall_mem_append]
      refine ⟨?_, ihLeft ascendingLeft, ihRight ascendingRight⟩
      intro node sameNode side j refers
      cases there.symm.trans sameNode
      cases side with
      | left =>
          rw [Node.child] at refers
          rw [refers] at unfoldsLeft
          exact below j (List.mem_append_left _ unfoldsLeft.index_mem)
      | right =>
          rw [Node.child] at refers
          rw [refers] at unfoldsRight
          exact below j (List.mem_append_right _ unfoldsRight.index_mem)

theorem Unfolds.left_eq_succ {target : Target} {first : Nat} (unfolds : Unfolds nodes batches target s)
    (consecutive : s.Consecutive first) :
    ∀ i ∈ s.nodes, ∀ node, nodes[i]? = some node →
      ∀ j, node.left.link.target = .inner j → j = i + 1 := by
  induction unfolds generalizing first with
  | missing => exact nofun
  | leaf inside => exact nofun
  | @inner index found left right there unfoldsLeft unfoldsRight ihLeft ihRight =>
      obtain ⟨rfl, consecutiveLeft, consecutiveRight⟩ := Subtree.consecutive_inner.1 consecutive
      rw [Subtree.nodes, List.forall_mem_cons, List.forall_mem_append]
      refine ⟨?_, ihLeft consecutiveLeft, ihRight consecutiveRight⟩
      intro node sameNode j refers
      cases there.symm.trans sameNode
      rw [refers] at unfoldsLeft
      obtain ⟨_, _, _, _, rfl⟩ := unfoldsLeft.eq_inner
      exact (Subtree.consecutive_inner.1 consecutiveLeft).1

end BoxTree

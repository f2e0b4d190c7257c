import BoxTree.Proofs.Build.Drawing

/-!
# Places that wait

The top of a tree has missing links where it waits for tasks. Each of these places is noted once, and
each task fills one place.
-/

namespace BoxTree.Binned

def Fixup.isAt (f : Fixup) (node : Nat) (side : Side) : Bool := f.node = node && f.side = side

def Slot.tasks : Slot → List Nat
  | ready _ => []
  | task id => [id]

def Top.waits {n : Nat} (top : Top n) (node : Nat) (side : Side) : Bool :=
  top.arena.nodes[node]?.any fun found => (found.child side).link.isMissing

variable {n : Nat} {sketch : Sketch n} {nodes : Array Node} {batches : Array Batch} {target : Target}
  {results : Nat → Subtree}

namespace Sketch

theorem count_waiting (unfolds : Unfolds nodes batches target sketch.now) (index : Nat) (side : Side) :
    (sketch.waiting index side).countP (·.isAt index side) =
      if target = .missing then 1 else 0 := by
  cases sketch with
  | leaf range content =>
      cases unfolds with
      | leaf inside => rfl
  | task id job =>
      cases unfolds with
      | missing => simp [waiting, Fixup.isAt]
  | inner index leftBox left rightBox right =>
      cases unfolds with
      | inner there unfoldsLeft unfoldsRight => rfl

theorem count_waiting_elsewhere {index node : Nat} {side other : Side}
    (elsewhere : index = node → side ≠ other) (sketch : Sketch n) :
    (sketch.waiting index side).countP (·.isAt node other) = 0 := by
  cases sketch with
  | leaf range content => rfl
  | task id job => simpa [waiting, Fixup.isAt] using elsewhere
  | inner index leftBox left rightBox right => rfl

theorem node_of_fixup : ∀ f ∈ sketch.fixups, f.node ∈ sketch.now.nodes := by
  induction sketch with
  | leaf range content => exact nofun
  | task id job => exact nofun
  | inner index leftBox left rightBox right ihLeft ihRight =>
      have own (side : Side) (child : Sketch n) : ∀ f ∈ child.waiting index side, f.node = index := by
        cases child with
        | leaf range content => exact nofun
        | task id job => exact fun f member => by rw [List.mem_singleton.1 member]
        | inner index' leftBox left rightBox right => exact nofun
      simp only [fixups, now, fill, Subtree.nodes, List.mem_append, List.mem_cons]
      rintro f (inLeft | inRight | ownLeft | ownRight)
      · exact .inr (.inl (ihLeft f inLeft))
      · exact .inr (.inr (ihRight f inRight))
      · exact .inl (own _ _ f ownLeft)
      · exact .inl (own _ _ f ownRight)

theorem count_fixups_of_not_mem {node : Nat} (other : node ∉ sketch.now.nodes) (side : Side) :
    sketch.fixups.countP (·.isAt node side) = 0 := by
  rw [List.countP_eq_zero]
  intro f member isAt
  simp only [Fixup.isAt, Bool.and_eq_true, decide_eq_true_eq] at isAt
  exact other (isAt.1 ▸ node_of_fixup f member)

theorem count_fixups (unfolds : Unfolds nodes batches target sketch.now)
    (nodup : sketch.now.nodes.Nodup) {i : Nat} (member : i ∈ sketch.now.nodes) {node : Node}
    (there : nodes[i]? = some node) (side : Side) :
    sketch.fixups.countP (·.isAt i side) =
      if (node.child side).link.target = .missing then 1 else 0 := by
  induction sketch generalizing target with
  | leaf range content => cases member
  | task id job => cases member
  | inner index leftBox left rightBox right ihLeft ihRight =>
      obtain ⟨found, _, thereIndex, _, _, unfoldsLeft, unfoldsRight⟩ := unfolds.of_inner
      simp only [now, fill, Subtree.nodes, List.nodup_cons, List.nodup_append, List.mem_append, not_or]
        at nodup
      obtain ⟨⟨notLeft, notRight⟩, nodupLeft, nodupRight, apart⟩ := nodup
      simp only [fixups, List.countP_append]
      simp only [now, fill, Subtree.nodes, List.mem_cons, List.mem_append] at member
      rcases member with rfl | inLeft | inRight
      · obtain rfl := Option.some.inj (there.symm.trans thereIndex)
        rw [count_fixups_of_not_mem notLeft, count_fixups_of_not_mem notRight]
        cases side with
        | left =>
            have elsewhere : i = i → Side.right ≠ .left := fun _ => by decide
            rw [count_waiting unfoldsLeft, count_waiting_elsewhere elsewhere, Nat.zero_add, Nat.zero_add]
            rfl
        | right =>
            have elsewhere : i = i → Side.left ≠ .right := fun _ => by decide
            rw [count_waiting unfoldsRight, count_waiting_elsewhere elsewhere, Nat.zero_add,
              Nat.zero_add, Nat.zero_add]
            rfl
      · have notIndex : index ≠ i := fun same => notLeft (same ▸ inLeft)
        have notInRight : i ∉ right.now.nodes := fun other => apart i inLeft i other rfl
        rw [ihLeft unfoldsLeft nodupLeft inLeft, count_fixups_of_not_mem notInRight,
          count_waiting_elsewhere fun same => absurd same notIndex,
          count_waiting_elsewhere fun same => absurd same notIndex]
        rfl
      · have notIndex : index ≠ i := fun same => notRight (same ▸ inRight)
        have notInLeft : i ∉ left.now.nodes := fun other => apart i other i inRight rfl
        rw [ihRight unfoldsRight nodupRight inRight, count_fixups_of_not_mem notInLeft,
          count_waiting_elsewhere fun same => absurd same notIndex,
          count_waiting_elsewhere fun same => absurd same notIndex, Nat.zero_add]
        rfl

theorem tasks_of_slot (link : Link) (sketch : Sketch n) (index : Nat) (side : Side) :
    (sketch.slot link).tasks = (sketch.waiting index side).map (·.task) := by
  cases sketch <;> rfl

theorem tasks_perm (link : Link) (sketch : Sketch n) :
    (sketch.fixups.map (·.task) ++ (sketch.slot link).tasks).Perm (sketch.tasks.map Prod.fst) := by
  induction sketch with
  | leaf range content => exact .refl _
  | task id job => exact .refl _
  | inner index leftBox left rightBox right ihLeft ihRight =>
      rw [tasks_of_slot _ left index .left] at ihLeft
      rw [tasks_of_slot _ right index .right] at ihRight
      simp only [fixups, slot, Slot.tasks, tasks, List.map_append, List.append_nil]
      refine .trans ?_ (ihLeft.append ihRight)
      simp only [List.append_assoc]
      exact (List.perm_append_comm_assoc _ _ _).append_left _

theorem unfolds_of_fixup (unfolds : Unfolds nodes batches target (sketch.fill results)) :
    ∀ f ∈ sketch.fixups, ∃ node, nodes[f.node]? = some node ∧ ∃ t ∈ sketch.tasks, t.1 = f.task ∧
      Unfolds nodes batches (node.child f.side).link.target (results t.1) := by
  induction sketch generalizing target with
  | leaf range content => exact nofun
  | task id job => exact nofun
  | inner index leftBox left rightBox right ihLeft ihRight =>
      obtain ⟨node, _, there, _, _, unfoldsLeft, unfoldsRight⟩ := unfolds.of_inner
      have own (side : Side) (child : Sketch n)
          (below : Unfolds nodes batches (node.child side).link.target (child.fill results)) :
          ∀ f ∈ child.waiting index side, ∃ node, nodes[f.node]? = some node ∧ ∃ t ∈ child.tasks,
            t.1 = f.task ∧ Unfolds nodes batches (node.child f.side).link.target (results t.1) := by
        cases child with
        | leaf range content => exact nofun
        | task id job =>
            intro f member
            obtain rfl := List.mem_singleton.1 member
            exact ⟨node, there, (id, job), List.mem_singleton_self _, rfl, below⟩
        | inner index' leftBox left rightBox right => exact nofun
      simp only [fixups, tasks, List.mem_append]
      rintro f (inLeft | inRight | ownLeft | ownRight)
      · obtain ⟨node, there, t, isTask, below⟩ := ihLeft unfoldsLeft f inLeft
        exact ⟨node, there, t, .inl isTask, below⟩
      · obtain ⟨node, there, t, isTask, below⟩ := ihRight unfoldsRight f inRight
        exact ⟨node, there, t, .inr isTask, below⟩
      · obtain ⟨node, there, t, isTask, below⟩ := own .left left unfoldsLeft f ownLeft
        exact ⟨node, there, t, .inl isTask, below⟩
      · obtain ⟨node, there, t, isTask, below⟩ := own .right right unfoldsRight f ownRight
        exact ⟨node, there, t, .inr isTask, below⟩

end Sketch

variable {top : Top n} {slot : Slot}

theorem Draws.count_fixups (draws : Draws {} top slot sketch) (node : Nat) (side : Side) :
    top.fixups.toList.countP (·.isAt node side) = if top.waits node side then 1 else 0 := by
  have fixups : top.fixups.toList = sketch.fixups := draws.fixups
  have nodes : sketch.now.nodes = List.range' 0 sketch.now.nodes.length := draws.adds.nodes
  have size : top.arena.nodes.size = 0 + sketch.now.nodes.length := draws.adds.nodeCount
  rw [fixups, Top.waits]
  cases there : top.arena.nodes[node]? with
  | none =>
      have bound := Array.getElem?_eq_none_iff.1 there
      apply Sketch.count_fixups_of_not_mem
      rw [nodes, List.mem_range'_1]
      omega
  | some found =>
      have bound := (Array.getElem?_eq_some_iff.1 there).1
      have member : node ∈ sketch.now.nodes := by
        rw [nodes, List.mem_range'_1]
        omega
      have nodup : sketch.now.nodes.Nodup := by
        rw [nodes]
        exact List.nodup_range'
      rw [Sketch.count_fixups draws.adds.unfolds nodup member there, Option.any_some]
      simp only [Link.isMissing_iff]

theorem Draws.tasks_perm (draws : Draws {} top slot sketch) :
    (top.fixups.toList.map (·.task) ++ slot.tasks).Perm (List.range top.tasks.size) := by
  have fixups : top.fixups.toList = sketch.fixups := draws.fixups
  have tasks : top.tasks.toList = sketch.tasks.map Prod.snd := draws.tasks
  have numbers : sketch.tasks.map Prod.fst = List.range' 0 sketch.tasks.length := draws.numbers
  have count : top.tasks.size = sketch.tasks.length := by
    rw [← Array.length_toList, tasks, List.length_map]
  have perm := Sketch.tasks_perm slot.linkNow sketch
  rwa [← draws.slotEq, ← fixups, numbers, ← count, ← List.range_eq_range'] at perm

end BoxTree.Binned

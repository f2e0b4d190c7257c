import BoxTree.Build.Binned
import BoxTree.Proofs.Append
import BoxTree.Proofs.Build.Subtree

/-!
# Sketches of the top of a tree

The top of a tree has places that wait for tasks. A sketch is the top with the tasks in these places,
and becomes a subtree once every task has one. Until then nothing hangs below them.
-/

namespace BoxTree.Binned

inductive Sketch (n : Nat) where
  | leaf (range : BatchRange) (content : List Batch)
  | task (id : Nat) (job : Task n)
  | inner (index : Nat) (leftBox : Box) (left : Sketch n) (rightBox : Box) (right : Sketch n)

namespace Sketch

variable {n : Nat}

def fill (results : Nat → Subtree) : Sketch n → Subtree
  | leaf range content => .leaf range content
  | task id _ => results id
  | inner index leftBox left rightBox right =>
    .inner index leftBox (left.fill results) rightBox (right.fill results)

def now (sketch : Sketch n) : Subtree := sketch.fill fun _ => .missing

def tasks : Sketch n → List (Nat × Task n)
  | leaf _ _ => []
  | task id job => [(id, job)]
  | inner _ _ left _ right => left.tasks ++ right.tasks

def slot (link : Link) : Sketch n → Slot
  | leaf _ _ => .ready link
  | task id _ => .task id
  | inner _ _ _ _ _ => .ready link

def waiting (node : Nat) (side : Side) : Sketch n → List Fixup
  | leaf _ _ => []
  | task id _ => [⟨node, side, id⟩]
  | inner _ _ _ _ _ => []

/-- The fixups in the order in which they are noted: a node is completed after its children. -/
def fixups : Sketch n → List Fixup
  | leaf _ _ => []
  | task _ _ => []
  | inner index _ left _ right =>
    left.fixups ++ (right.fixups ++ (left.waiting index .left ++ right.waiting index .right))

variable (results : Nat → Subtree) (sketch : Sketch n)

theorem nodes_fill : (sketch.fill results).nodes.Perm
    (sketch.now.nodes ++ sketch.tasks.flatMap fun t => (results t.1).nodes) := by
  induction sketch with
  | leaf range content => exact .refl _
  | task id job => exact .of_eq (by simp [fill, now, tasks, Subtree.nodes])
  | inner index leftBox left rightBox right ihLeft ihRight =>
      simp only [fill, now, tasks, Subtree.nodes, List.flatMap_append, List.cons_append]
      apply List.Perm.cons
      refine (ihLeft.append ihRight).trans ?_
      simp only [now, List.append_assoc]
      exact (List.perm_append_comm_assoc _ _ _).append_left _

theorem batches_fill : (sketch.fill results).batches.Perm
    (sketch.now.batches ++ sketch.tasks.flatMap fun t => (results t.1).batches) := by
  induction sketch with
  | leaf range content => exact .of_eq (by simp [fill, now, tasks])
  | task id job => exact .of_eq (by simp [fill, now, tasks, Subtree.batches])
  | inner index leftBox left rightBox right ihLeft ihRight =>
      simp only [fill, now, tasks, Subtree.batches, List.flatMap_append]
      refine (ihLeft.append ihRight).trans ?_
      simp only [now, List.append_assoc]
      exact (List.perm_append_comm_assoc _ _ _).append_left _

/-! ## Links that wait -/

variable {results : Nat → Subtree} {sketch : Sketch n} {roots : List Link} {a : Arena}

def Known (roots : List Link) (results : Nat → Subtree) (a : Arena) (top id : Nat) : Prop :=
  ∃ root, roots[id]? = some root ∧ Unfolds a.nodes a.batches root.target (results id) ∧
    ∀ i ∈ (results id).nodes, top ≤ i

theorem Known.congr {a' : Arena} {top id : Nat} (known : Known roots results a top id)
    (batches : a'.batches = a.batches) (keeps : ∀ i, top ≤ i → a'.nodes[i]? = a.nodes[i]?) :
    Known roots results a' top id := by
  obtain ⟨root, found, unfolds, above⟩ := known
  exact ⟨root, found, unfolds.congr (fun i member => keeps i (above i member))
    (fun _ _ => by rw [batches]), above⟩

theorem mem_nodes_fill {top : Nat} (known : ∀ t ∈ sketch.tasks, Known roots results a top t.1) :
    ∀ i ∈ (sketch.fill results).nodes, i ∈ sketch.now.nodes ∨ top ≤ i := by
  intro i member
  rw [(nodes_fill results sketch).mem_iff, List.mem_append, List.mem_flatMap] at member
  rcases member with inTop | ⟨t, isTask, inTask⟩
  · exact .inl inTop
  · obtain ⟨_, _, _, above⟩ := known t isTask
    exact .inr (above i inTask)

theorem waiting_ok (side : Side) {index : Nat} {node : Node} (there : a.nodes[index]? = some node)
    (known : ∀ t ∈ sketch.tasks, ∃ root, roots[t.1]? = some root) :
    ∃ link a', (sketch.waiting index side).foldlM (Fixup.apply roots) a = .ok a' ∧
      (sketch.slot (node.child side).link).resolve roots = .ok link ∧
        a' = a.setNode index (node.setLink side link) := by
  have unchanged : a.setNode index (node.setLink side (node.child side).link) = a := by
    have same : node.setLink side (node.child side).link = node := by cases side <;> rfl
    obtain ⟨bound, rfl⟩ := Array.getElem?_eq_some_iff.1 there
    rw [same, Arena.setNode, Array.setIfInBounds_def, dif_pos bound, Array.set_getElem_self]
  cases sketch with
  | leaf range content => exact ⟨_, a, rfl, rfl, unchanged.symm⟩
  | task id job =>
      obtain ⟨root, found⟩ := known (id, job) (List.mem_singleton_self _)
      have rootFound : rootOf roots id = .ok root := by rw [rootOf, found]
      refine ⟨root, _, ?_, rootFound, rfl⟩
      simp only [waiting, List.foldlM_cons, List.foldlM_nil, Fixup.apply, rootFound, ok_bind,
        Arena.setLink, there]
      rfl
  | inner index' leftBox left rightBox right => exact ⟨_, a, rfl, rfl, unchanged.symm⟩

theorem waitings_ok {left right : Sketch n} {index : Nat} {node : Node}
    (there : a.nodes[index]? = some node)
    (knownLeft : ∀ t ∈ left.tasks, ∃ root, roots[t.1]? = some root)
    (knownRight : ∀ t ∈ right.tasks, ∃ root, roots[t.1]? = some root) :
    ∃ leftLink rightLink a',
      (left.waiting index .left ++ right.waiting index .right).foldlM (Fixup.apply roots) a = .ok a' ∧
        (left.slot node.left.link).resolve roots = .ok leftLink ∧
        (right.slot node.right.link).resolve roots = .ok rightLink ∧
        a'.nodes[index]? = some ⟨⟨node.left.box, leftLink⟩, ⟨node.right.box, rightLink⟩⟩ ∧
        a'.nodes.size = a.nodes.size ∧ a'.batches = a.batches ∧
        ∀ i, i ≠ index → a'.nodes[i]? = a.nodes[i]? := by
  obtain ⟨leftLink, a₁, applied₁, resolved₁, rfl⟩ := waiting_ok .left there knownLeft
  have bound : index < a.nodes.size := (Array.getElem?_eq_some_iff.1 there).1
  have there₁ : (a.setNode index (node.setLink .left leftLink)).nodes[index]? =
      some (node.setLink .left leftLink) := Array.getElem?_setIfInBounds_self_of_lt bound
  obtain ⟨rightLink, a₂, applied₂, resolved₂, rfl⟩ := waiting_ok .right there₁ knownRight
  have bound₁ := (Array.getElem?_eq_some_iff.1 there₁).1
  refine ⟨leftLink, rightLink, (a.setNode index (node.setLink .left leftLink)).setNode index
      ((node.setLink .left leftLink).setLink .right rightLink), ?_, resolved₁, resolved₂,
    Array.getElem?_setIfInBounds_self_of_lt bound₁, ?_, rfl, fun i other => ?_⟩
  · rw [List.foldlM_append, applied₁, ok_bind]
    exact applied₂
  · simp only [Arena.setNode, Array.size_setIfInBounds]
  · simp only [Arena.setNode]
    rw [Array.getElem?_setIfInBounds_ne other.symm, Array.getElem?_setIfInBounds_ne other.symm]

theorem fixups_ok {link : Link} {top : Nat}
    (unfolds : Unfolds a.nodes a.batches link.target sketch.now) (nodup : sketch.now.nodes.Nodup)
    (inTop : ∀ i ∈ sketch.now.nodes, i < top)
    (known : ∀ t ∈ sketch.tasks, Known roots results a top t.1) :
    ∃ root a', sketch.fixups.foldlM (Fixup.apply roots) a = .ok a' ∧
      (sketch.slot link).resolve roots = .ok root ∧
        Unfolds a'.nodes a'.batches root.target (sketch.fill results) ∧ a'.batches = a.batches ∧
          a'.nodes.size = a.nodes.size ∧ ∀ i ∉ sketch.now.nodes, a'.nodes[i]? = a.nodes[i]? := by
  induction sketch generalizing a link with
  | leaf range content => exact ⟨link, a, rfl, rfl, unfolds, rfl, rfl, fun _ _ => rfl⟩
  | task id job =>
      obtain ⟨root, found, below, _⟩ := known (id, job) (List.mem_singleton_self _)
      exact ⟨root, a, rfl, by rw [slot, Slot.resolve, rootOf, found], below, rfl, rfl, fun _ _ => rfl⟩
  | inner index leftBox left rightBox right ihLeft ihRight =>
      obtain ⟨node, refers, there, rfl, rfl, unfoldsLeft, unfoldsRight⟩ := unfolds.of_inner
      simp only [now, fill, Subtree.nodes, List.nodup_cons, List.nodup_append, List.mem_append, not_or]
        at nodup
      obtain ⟨⟨notLeft, notRight⟩, nodupLeft, nodupRight, apart⟩ := nodup
      simp only [now, fill, Subtree.nodes, List.forall_mem_cons, List.forall_mem_append] at inTop
      obtain ⟨indexInTop, leftInTop, rightInTop⟩ := inTop
      simp only [tasks, List.forall_mem_append] at known
      obtain ⟨knownLeft, knownRight⟩ := known
      -- The left side is completed first. It changes nothing at the right side or in the tasks.
      obtain ⟨rootLeft, a₁, applied₁, resolved₁, whole₁, batches₁, size₁, keeps₁⟩ :=
        ihLeft unfoldsLeft nodupLeft leftInTop knownLeft
      have leftKeeps (i : Nat) (late : top ≤ i) : a₁.nodes[i]? = a.nodes[i]? :=
        keeps₁ i fun member => absurd (leftInTop i member) (by omega)
      have unfoldsRight₁ : Unfolds a₁.nodes a₁.batches node.right.link.target right.now :=
        unfoldsRight.congr (fun i member => keeps₁ i fun other => apart i other i member rfl)
          (fun _ _ => by rw [batches₁])
      obtain ⟨rootRight, a₂, applied₂, resolved₂, whole₂, batches₂, size₂, keeps₂⟩ :=
        ihRight unfoldsRight₁ nodupRight rightInTop fun t isTask =>
          (knownRight t isTask).congr batches₁ leftKeeps
      have there₂ : a₂.nodes[index]? = some node := by rw [keeps₂ _ notRight, keeps₁ _ notLeft, there]
      obtain ⟨leftLink, rightLink, a₃, applied₃, resolvedLeft, resolvedRight, there₃, size₃, batches₃,
        elsewhere⟩ := waitings_ok there₂ (fun t isTask => (knownLeft t isTask).imp fun _ => And.left)
          (fun t isTask => (knownRight t isTask).imp fun _ => And.left)
      obtain rfl : rootLeft = leftLink := Except.ok.inj (resolved₁.symm.trans resolvedLeft)
      obtain rfl : rootRight = rightLink := Except.ok.inj (resolved₂.symm.trans resolvedRight)
      refine ⟨link, a₃, ?_, rfl, ?_, batches₃.trans (batches₂.trans batches₁),
        size₃.trans (size₂.trans size₁), ?_⟩
      · rw [fixups, List.foldlM_append, applied₁, ok_bind, List.foldlM_append, applied₂, ok_bind]
        exact applied₃
      · rw [refers]
        apply Unfolds.inner there₃
        · apply whole₁.congr
          · intro i member
            rcases mem_nodes_fill knownLeft i member with inLeft | late
            · rw [elsewhere i fun same => notLeft (same ▸ inLeft),
                keeps₂ i fun other => apart i inLeft i other rfl]
            · rw [elsewhere i (by omega), keeps₂ i fun other => absurd (rightInTop i other) (by omega)]
          · exact fun i _ => by rw [batches₃, batches₂]
        · apply whole₂.congr
          · intro i member
            rcases mem_nodes_fill knownRight i member with inRight | late
            · exact elsewhere i fun same => notRight (same ▸ inRight)
            · exact elsewhere i (by omega)
          · exact fun i _ => by rw [batches₃]
      · intro i other
        simp only [now, fill, Subtree.nodes, List.mem_cons, List.mem_append, not_or] at other
        obtain ⟨notIndex, notInLeft, notInRight⟩ := other
        rw [elsewhere i notIndex, keeps₂ i notInRight, keeps₁ i notInLeft]

end Sketch

end BoxTree.Binned

import BoxTree.Build.Binned
import BoxTree.Proofs.Append
import BoxTree.Proofs.Statistics

/-!
# Tasks

Every task comes to its end with an arena of its own. The arenas are appended in the order in which
the tasks were handed out, whatever order they ended in.
-/

namespace BoxTree

structure Arena.AddsAll (before after : Arena) (roots : List Link) (below : List Subtree) : Prop where
  unfolds : List.Forall₂ (fun root s => Unfolds after.nodes after.batches root.target s) roots below
  nodes : below.flatMap Subtree.nodes =
    List.range' before.nodes.size (below.flatMap Subtree.nodes).length
  batches : below.flatMap Subtree.batches =
    List.range' before.batches.size (below.flatMap Subtree.batches).length
  nodeCount : after.nodes.size = before.nodes.size + (below.flatMap Subtree.nodes).length
  batchCount : after.batches.size = before.batches.size + (below.flatMap Subtree.batches).length
  keepsNodes : ∀ i < before.nodes.size, after.nodes[i]? = before.nodes[i]?
  keepsBatches : ∀ i < before.batches.size, after.batches[i]? = before.batches[i]?

namespace Arena

variable {a a₁ a₂ : Arena} {root : Link} {s : Subtree} {roots : List Link} {below : List Subtree}

theorem addsAll_nil (a : Arena) : a.AddsAll a [] [] :=
  ⟨.nil, rfl, rfl, rfl, rfl, fun _ _ => rfl, fun _ _ => rfl⟩

theorem addsAll_cons (adds : a.Adds a₁ root.target s) (rest : a₁.AddsAll a₂ roots below) :
    a.AddsAll a₂ (root :: roots) (s :: below) := by
  have nodes := rest.nodes
  have batches := rest.batches
  have nodeCount := rest.nodeCount
  have batchCount := rest.batchCount
  rw [adds.nodeCount] at nodes nodeCount
  rw [adds.batchCount] at batches batchCount
  constructor
  · apply List.Forall₂.cons _ rest.unfolds
    exact adds.unfolds.congr (fun i member => rest.keepsNodes i (adds.unfolds.node_lt i member))
      (fun i member => rest.keepsBatches i (adds.unfolds.batch_lt i member))
  · rw [List.flatMap_cons, List.length_append, ← List.range'_append_1, ← nodes, ← adds.nodes]
  · rw [List.flatMap_cons, List.length_append, ← List.range'_append_1, ← batches, ← adds.batches]
  · rw [List.flatMap_cons, List.length_append, nodeCount, Nat.add_assoc]
  · rw [List.flatMap_cons, List.length_append, batchCount, Nat.add_assoc]
  · intro i bound
    rw [rest.keepsNodes i (by rw [adds.nodeCount]; omega), adds.keepsNodes i bound]
  · intro i bound
    rw [rest.keepsBatches i (by rw [adds.batchCount]; omega), adds.keepsBatches i bound]

end Arena

namespace Binned

variable {n : Nat} {select : Selection n} {p : Primitives n} {s : Settings} {a : Arena}
  {tasks : List (Task n)}

def Task.arena : Arena := { statistics := { parallelTasks := 1 } }

structure Outcome where
  root : Link
  part : Arena
  below : Subtree

structure Task.Ends (select : Selection n) (p : Primitives n) (s : Settings) (task : Task n)
    (o : Outcome) : Prop where
  ran : task.run select p s = .ok (o.root, o.part)
  adds : Task.arena.Adds o.part o.root.target o.below

theorem outcomes_of_each {ends : Task n → Outcome → Prop} (each : ∀ task ∈ tasks, ∃ o, ends task o) :
    ∃ outcomes, List.Forall₂ ends tasks outcomes := by
  induction tasks with
  | nil => exact ⟨[], .nil⟩
  | cons task rest ih =>
      rw [List.forall_mem_cons] at each
      obtain ⟨⟨o, first⟩, others⟩ := each
      obtain ⟨outcomes, all⟩ := ih others
      exact ⟨o :: outcomes, .cons first all⟩

def resultsFrom (select : Selection n) (p : Primitives n) (s : Settings) (first : Nat)
    (tasks : List (Task n)) : List Finished :=
  (tasks.zipIdx first).map fun (task, id) => (id, task.run select p s)

theorem appendTasks_ok {holds : Task n → Subtree → Prop}
    (moves : ∀ {task below} nodes batches, holds task below → holds task (below.shift nodes batches))
    {outcomes : List Outcome}
    (ended : List.Forall₂ (fun task o => task.Ends select p s o ∧ holds task o.below) tasks outcomes)
    (nodes : a.nodes.size + ((outcomes.map (·.below)).flatMap Subtree.nodes).length ≤ maxIndex + 1)
    (batches : a.batches.size + ((outcomes.map (·.below)).flatMap Subtree.batches).length ≤ maxIndex + 1)
    (first : Nat) :
    ∃ roots merged moved, appendTasks a (resultsFrom select p s first tasks) = .ok (roots, merged) ∧
      a.AddsAll merged roots moved ∧ List.Forall₂ holds tasks moved ∧
        merged.statistics = a.statistics.mergeAll (outcomes.map (·.part.statistics)) := by
  induction ended generalizing a first with
  | nil => exact ⟨[], a, [], rfl, Arena.addsAll_nil a, .nil, rfl⟩
  | @cons task o tasks outcomes head _ ih =>
      obtain ⟨⟨ran, adds⟩, held⟩ := head
      have nodeCount := adds.nodeCount
      have batchCount := adds.batchCount
      simp only [Task.arena, Array.size_empty, Nat.zero_add] at nodeCount batchCount
      rw [List.map_cons, List.flatMap_cons, List.length_append] at nodes batches
      obtain ⟨link, a₁, appended, target, merges, counted⟩ := @Arena.append_ok a o.part o.root
        (Arena.linked_of_adds adds rfl) adds.unfolds.inRange (by omega) (by omega)
      have added := Arena.adds_of_merges adds rfl rfl merges
      rw [← target] at added
      obtain ⟨roots, merged, moved, rest, addsAll, others, countedRest⟩ := @ih a₁
        (by rw [merges.nodeCount]; omega) (by rw [merges.batchCount]; omega) (first + 1)
      refine ⟨link :: roots, merged, _ :: moved, ?_, Arena.addsAll_cons added addsAll,
        .cons (moves a.nodes.size a.batches.size held) others, ?_⟩
      · rw [resultsFrom] at rest
        simp only [resultsFrom, List.zipIdx_cons, List.map_cons, appendTasks, ran, ok_bind, appended,
          Except.mapError, rest]
        rfl
      · rw [countedRest, counted]
        rfl

/-! ## The order of results -/

theorem mergeSort_results {finished inOrder : List Finished} (perm : finished.Perm inOrder)
    (increasing : inOrder.Pairwise fun a b => a.1 < b.1) :
    finished.mergeSort (fun a b => decide (a.1 ≤ b.1)) = inOrder := by
  have distinct : (inOrder.map Prod.fst).Nodup :=
    List.pairwise_map.2 (increasing.imp fun less => less.ne)
  have sorted : (finished.mergeSort fun a b => decide (a.1 ≤ b.1)).Pairwise
      fun a b => decide (a.1 ≤ b.1) = true := by
    apply List.pairwise_mergeSort
    · intro a b c first second
      exact decide_eq_true ((of_decide_eq_true first).trans (of_decide_eq_true second))
    · intro a b
      simp only [Bool.or_eq_true, decide_eq_true_eq]
      exact Nat.le_total a.1 b.1
  have same := (List.mergeSort_perm finished fun a b => decide (a.1 ≤ b.1)).trans perm
  apply List.Perm.eq_of_pairwise _ sorted (increasing.imp fun less => decide_eq_true less.le) same
  intro a b memberA memberB leAB leBA
  have equal : a.1 = b.1 := Nat.le_antisymm (of_decide_eq_true leAB) (of_decide_eq_true leBA)
  exact List.inj_on_of_nodup_map distinct (same.mem_iff.1 memberA) memberB equal

theorem finish_increasing (select : Selection n) (p : Primitives n) (s : Settings) (top : Top n) :
    (top.finish select p s).Pairwise fun a b => a.1 < b.1 := by
  have numbers : (top.tasks.toList.zipIdx.map Prod.snd).Pairwise (· < ·) := by
    rw [List.zipIdx_map_snd]
    exact List.pairwise_lt_range'
  rw [Top.finish, List.pairwise_map]
  exact List.pairwise_map.1 numbers

theorem assemble_of_perm {top : Top n} {finished : List Finished}
    (perm : finished.Perm (top.finish select p s)) (slot : Slot) (bounds : Box) :
    assemble slot top finished bounds = assemble slot top (top.finish select p s) bounds := by
  have increasing := finish_increasing select p s top
  rw [assemble, assemble, mergeSort_results perm increasing, mergeSort_results (.refl _) increasing]

end Binned

end BoxTree

import BoxTree.Proofs.Build.Drawing
import BoxTree.Proofs.Build.Root
import BoxTree.Proofs.Build.Tasks

/-!
# Assembling a tree

The results of the tasks fill the places of the sketch that wait for them, which makes one tree of the
sketch and the results.
-/

namespace BoxTree.Binned
open Sketch

variable {n : Nat} {after : Top n} {slot : Slot} {sketch : Sketch n}

/-! ## Results by number -/

def numbered (below : List Subtree) (id : Nat) : Subtree := below.getD id .missing

variable {below : List Subtree} {tasks : List (Nat × Task n)}

theorem numbered_of_lt {id : Nat} (bound : id < below.length) : numbered below id = below[id] := by
  rw [numbered, List.getD_eq_getElem?_getD, List.getElem?_eq_getElem bound, Option.getD_some]

theorem map_numbered (below : List Subtree) : (List.range below.length).map (numbered below) = below := by
  apply List.ext_getElem
  · rw [List.length_map, List.length_range]
  · intro i _ bound
    rw [List.getElem_map, List.getElem_range, numbered_of_lt bound]

theorem flatMap_numbered (f : Subtree → List Nat)
    (numbers : tasks.map Prod.fst = List.range' 0 tasks.length) (length : tasks.length = below.length) :
    (tasks.flatMap fun t => f (numbered below t.1)) = below.flatMap f := by
  calc (tasks.flatMap fun t => f (numbered below t.1))
      = (tasks.map Prod.fst).flatMap fun id => f (numbered below id) := by rw [List.flatMap_map]
    _ = ((List.range below.length).map (numbered below)).flatMap f := by
        rw [numbers, length, ← List.range_eq_range', List.flatMap_map]
    _ = below.flatMap f := by rw [map_numbered]

theorem number_eq (numbers : tasks.map Prod.fst = List.range' 0 tasks.length) {i : Nat}
    (bound : i < tasks.length) : tasks[i].1 = i := by
  have same : (tasks.map Prod.fst)[i]? = (List.range' 0 tasks.length)[i]? := by rw [numbers]
  simpa [bound] using same

theorem of_numbered {holds : Task n → Subtree → Prop}
    (numbers : tasks.map Prod.fst = List.range' 0 tasks.length)
    (all : List.Forall₂ holds (tasks.map Prod.snd) below) :
    ∀ t ∈ tasks, holds t.2 (numbered below t.1) := by
  intro t member
  obtain ⟨i, bound, rfl⟩ := List.mem_iff_getElem.1 member
  have boundTask : i < (tasks.map Prod.snd).length := by rwa [List.length_map]
  have boundBelow : i < below.length := all.length_eq ▸ boundTask
  have found := all.get boundTask boundBelow
  rw [number_eq numbers bound, numbered_of_lt boundBelow]
  simpa using found

theorem task_of_draws (draws : Draws {} after slot sketch) :
    ∀ t ∈ sketch.tasks, after.tasks[t.1]? = some t.2 := by
  intro t member
  have tasks : after.tasks.toList = sketch.tasks.map Prod.snd := draws.tasks
  obtain ⟨i, bound, rfl⟩ := List.mem_iff_getElem.1 member
  rw [number_eq draws.numbers bound, ← Array.getElem?_toList, tasks, List.getElem?_map,
    List.getElem?_eq_getElem bound]
  rfl

theorem head?_nodes_fill (results : Nat → Subtree) (sketch : Sketch n) :
    (sketch.fill results).nodes.head? =
      (sketch.now.nodes ++ sketch.tasks.flatMap fun t => (results t.1).nodes).head? := by
  cases sketch with
  | leaf range content => rfl
  | task id job => simp [fill, now, Sketch.tasks, Subtree.nodes]
  | inner index leftBox left rightBox right => rfl

/-! ## The whole tree -/

section

variable {merged : Arena} {roots : List Link} (draws : Draws {} after slot sketch)
  (length : sketch.tasks.length = below.length) (addsAll : after.arena.AddsAll merged roots below)

include draws length

theorem flatMap_tasks (f : Subtree → List Nat) :
    (sketch.tasks.flatMap fun t => f (numbered below t.1)) = below.flatMap f :=
  flatMap_numbered f draws.numbers length

include addsAll

theorem nodes_of_addsAll :
    sketch.now.nodes ++ (sketch.tasks.flatMap fun t => (numbered below t.1).nodes) =
      List.range merged.nodes.size := by
  have inTop : sketch.now.nodes = List.range' 0 sketch.now.nodes.length := draws.adds.nodes
  have count : after.arena.nodes.size = 0 + sketch.now.nodes.length := draws.adds.nodeCount
  rw [flatMap_tasks draws length, addsAll.nodes, inTop, count, List.range'_append_1,
    addsAll.nodeCount, count, List.range_eq_range', Nat.zero_add]

theorem batches_of_addsAll :
    sketch.now.batches ++ (sketch.tasks.flatMap fun t => (numbered below t.1).batches) =
      List.range merged.batches.size := by
  have inTop : sketch.now.batches = List.range' 0 sketch.now.batches.length := draws.adds.batches
  have count : after.arena.batches.size = 0 + sketch.now.batches.length := draws.adds.batchCount
  rw [flatMap_tasks draws length, addsAll.batches, inTop, count, List.range'_append_1,
    addsAll.batchCount, count, List.range_eq_range', Nat.zero_add]

theorem known_of_addsAll :
    ∀ t ∈ sketch.tasks, Known roots (numbered below) merged after.arena.nodes.size t.1 := by
  intro t member
  have bound : t.1 < below.length := by
    have number : t.1 ∈ sketch.tasks.map Prod.fst := List.mem_map_of_mem member
    rw [draws.numbers, List.mem_range'_1] at number
    have zero : (({} : Top n).tasks).size = 0 := rfl
    omega
  have boundRoots : t.1 < roots.length := addsAll.unfolds.length_eq ▸ bound
  refine ⟨roots[t.1], List.getElem?_eq_getElem boundRoots, ?_, ?_⟩
  · rw [numbered_of_lt bound]
    exact addsAll.unfolds.get boundRoots bound
  · intro i inTask
    rw [numbered_of_lt bound] at inTask
    have inSome : i ∈ below.flatMap Subtree.nodes :=
      List.mem_flatMap.2 ⟨_, List.getElem_mem bound, inTask⟩
    rw [addsAll.nodes, List.mem_range'_1] at inSome
    exact inSome.1

theorem completes_of_addsAll :
    ∃ root a, after.fixups.toList.foldlM (Fixup.apply roots) merged = .ok a ∧
      slot.resolve roots = .ok root ∧ a.Whole root (sketch.fill (numbered below)) := by
  have unfolds : Unfolds merged.nodes merged.batches slot.linkNow.target sketch.now :=
    draws.adds.unfolds.congr
      (fun i member => addsAll.keepsNodes i (draws.adds.unfolds.node_lt i member))
      (fun i member => addsAll.keepsBatches i (draws.adds.unfolds.batch_lt i member))
  have nodup : sketch.now.nodes.Nodup := by
    rw [draws.adds.nodes]
    exact List.nodup_range'
  obtain ⟨root, a, applied, resolved, filled, batches, size, _⟩ := fixups_ok unfolds nodup
    draws.adds.unfolds.node_lt (known_of_addsAll draws length addsAll)
  rw [← draws.slotEq] at resolved
  have fixups : after.fixups.toList = sketch.fixups := draws.fixups
  rw [← fixups] at applied
  have nodesPerm := nodes_fill (numbered below) sketch
  have batchesPerm := batches_fill (numbered below) sketch
  rw [nodes_of_addsAll draws length addsAll, ← size] at nodesPerm
  rw [batches_of_addsAll draws length addsAll, ← batches] at batchesPerm
  refine ⟨root, a, applied, resolved, filled, ?_, nodesPerm, batchesPerm⟩
  intro index refers
  rw [refers] at filled
  apply filled.eq_zero
  rw [head?_nodes_fill, nodes_of_addsAll draws length addsAll]

end

theorem statistics_of_fixups {roots : List Link} {fixups : List Fixup} {a a' : Arena}
    (applied : fixups.foldlM (Fixup.apply roots) a = .ok a') : a'.statistics = a.statistics := by
  induction fixups generalizing a with
  | nil =>
      obtain rfl := Except.ok.inj applied
      rfl
  | cons f fixups ih =>
      rw [List.foldlM_cons, bind_eq_ok] at applied
      obtain ⟨next, set, rest⟩ := applied
      obtain ⟨link, _, set⟩ := bind_eq_ok.1 set
      have same : next.statistics = a.statistics := by
        unfold Arena.setLink at set
        split at set
        · obtain rfl := Except.ok.inj set
          rfl
        · cases set
      exact (ih rest).trans same

theorem assemble_eq {select : Selection n} {p : Primitives n} {s : Settings}
    (draws : Draws {} after slot sketch)
    {holds : Task n → Subtree → Prop}
    (moves : ∀ {task below} nodes batches, holds task below → holds task (below.shift nodes batches))
    {outcomes : List Outcome}
    (ended : List.Forall₂ (fun task o => task.Ends select p s o ∧ holds task o.below)
      (sketch.tasks.map Prod.snd) outcomes)
    (nodes : after.arena.nodes.size + ((outcomes.map (·.below)).flatMap Subtree.nodes).length ≤
      maxIndex + 1)
    (batches : after.arena.batches.size + ((outcomes.map (·.below)).flatMap Subtree.batches).length ≤
      maxIndex + 1) (bounds : Box) :
    ∃ (root : Link) (a : Arena) (results : Nat → Subtree),
      assemble slot after (after.finish select p s) bounds = a.rooted root bounds ∧
        (∀ t ∈ sketch.tasks, holds t.2 (results t.1)) ∧ a.Whole root (sketch.fill results) ∧
          a.statistics = after.arena.statistics.mergeAll (outcomes.map (·.part.statistics)) := by
  have tasks : after.tasks.toList = sketch.tasks.map Prod.snd := draws.tasks
  obtain ⟨roots, merged, moved, appended, addsAll, held, counted⟩ :=
    appendTasks_ok moves ended nodes batches 0
  have length : sketch.tasks.length = moved.length := by
    rw [← held.length_eq, List.length_map]
  obtain ⟨root, a, applied, resolved, whole⟩ := completes_of_addsAll draws length addsAll
  refine ⟨root, a, numbered moved, ?_, of_numbered draws.numbers held, whole,
    (statistics_of_fixups applied).trans counted⟩
  have inOrder := mergeSort_results (.refl _) (finish_increasing select p s after)
  have results : after.finish select p s = resultsFrom select p s 0 (sketch.tasks.map Prod.snd) := by
    rw [Top.finish, tasks, resultsFrom]
  have count : (after.finish select p s).length = after.tasks.size := by
    rw [Top.finish, List.length_map, List.length_zipIdx, Array.length_toList]
  simp only [assemble, inOrder, count, ne_eq, not_true_eq_false, if_false]
  rw [results, appended, ok_bind, applied, ok_bind, resolved, ok_bind]

end BoxTree.Binned

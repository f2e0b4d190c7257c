import BoxTree.Proofs.Build.Assembly
import BoxTree.Proofs.Build.Grown
import BoxTree.Proofs.Build.Places
import BoxTree.Proofs.Build.Yields

/-!
# Builds in tasks

A build that leaves subtrees to tasks makes the same tree as the build of the whole tree at once, and
counts the same except for the tasks. Each place that waits for a task gets the link to what the task
has built, once.
-/

namespace BoxTree.Binned
open Sketch

variable {n : Nat} {select : Selection n} {p : Primitives n} {s : Settings} {levels : Nat}
  {triangles : List (Fin n)} {bounds : Box} {shape : Shape} {counters : BuildStatistics}
  {shapes : Task n → Shape} {tallies : Task n → BuildStatistics} {results : Nat → Subtree}
  {sketch : Sketch n} {before after : Top n} {slot : Slot}

/-! ## Shapes of sketches -/

namespace Sketch

def fillShape (shapes : Task n → Shape) : Sketch n → Shape
  | leaf _ content => .leaf content
  | task _ job => shapes job
  | inner _ leftBox left rightBox right =>
    .inner leftBox (left.fillShape shapes) rightBox (right.fillShape shapes)

theorem shape_fill (same : ∀ t ∈ sketch.tasks, (results t.1).shape = shapes t.2) :
    (sketch.fill results).shape = sketch.fillShape shapes := by
  induction sketch with
  | leaf range content => rfl
  | task id job => exact same (id, job) (List.mem_singleton_self _)
  | inner index leftBox left rightBox right ihLeft ihRight =>
      rw [tasks, List.forall_mem_append] at same
      rw [fill, Subtree.shape, ihLeft same.1, ihRight same.2, fillShape]

theorem nodeCount_now (shapes : Task n → Shape) (sketch : Sketch n) :
    (sketch.fillShape shapes).nodeCount =
      sketch.now.shape.nodeCount + (sketch.tasks.map fun t => (shapes t.2).nodeCount).sum := by
  induction sketch with
  | leaf range content => rfl
  | task id job => simp [fillShape, now, fill, tasks, Subtree.shape, Shape.nodeCount]
  | inner index leftBox left rightBox right ihLeft ihRight =>
      simp only [fillShape, Shape.nodeCount, ihLeft, ihRight, now, fill, Subtree.shape, tasks,
        List.map_append, List.sum_append]
      omega

theorem batchCount_now (shapes : Task n → Shape) (sketch : Sketch n) :
    (sketch.fillShape shapes).batchCount =
      sketch.now.shape.batchCount + (sketch.tasks.map fun t => (shapes t.2).batchCount).sum := by
  induction sketch with
  | leaf range content => rfl
  | task id job => simp [fillShape, now, fill, tasks, Subtree.shape, Shape.batchCount]
  | inner index leftBox left rightBox right ihLeft ihRight =>
      simp only [fillShape, Shape.batchCount, ihLeft, ihRight, now, fill, Subtree.shape, tasks,
        List.map_append, List.sum_append]
      omega

end Sketch

/-! ## The top of the tree -/

def Task.Yields (select : Selection n) (p : Primitives n) (s : Settings) (task : Task n)
    (shape : Shape) (counters : BuildStatistics) : Prop :=
  Binned.Yields select p s task.levels task.triangles task.bounds shape counters

def Foretold (select : Selection n) (p : Primitives n) (s : Settings) (shapes : Task n → Shape)
    (tallies : Task n → BuildStatistics) : Prop :=
  ∀ task shape counters, task.Yields select p s shape counters →
    shape = shapes task ∧ counters = tallies task

theorem exists_foretold (select : Selection n) (p : Primitives n) (s : Settings) :
    ∃ shapes tallies, Foretold select p s shapes tallies := by
  have each (task : Task n) : ∃ answer : Shape × BuildStatistics, ∀ shape counters,
      task.Yields select p s shape counters → shape = answer.1 ∧ counters = answer.2 := by
    by_cases some : ∃ shape counters, task.Yields select p s shape counters
    · obtain ⟨shape, counters, yields⟩ := some
      exact ⟨(shape, counters), fun _ _ other => other.unique yields⟩
    · exact ⟨(.missing, {}), fun shape counters yields => absurd ⟨shape, counters, yields⟩ some⟩
  choose answers same using each
  exact ⟨fun task => (answers task).1, fun task => (answers task).2, same⟩

structure Outlined (select : Selection n) (p : Primitives n) (s : Settings) (shapes : Task n → Shape)
    (tallies : Task n → BuildStatistics) (before after : Top n) (slot : Slot) (sketch : Sketch n)
    (shape : Shape) (counters : BuildStatistics) : Prop extends Draws before after slot sketch where
  yields : ∀ t ∈ sketch.tasks, t.2.Yields select p s (shapes t.2) (tallies t.2)
  filled : sketch.fillShape shapes = shape
  counted : after.arena.statistics.mergeAll (sketch.tasks.map fun t => tallies t.2) =
    before.arena.statistics.merge counters

theorem Draws.sizes (draws : Draws before after slot sketch) :
    after.arena.nodes.size = before.arena.nodes.size + sketch.now.shape.nodeCount ∧
      after.arena.batches.size = before.arena.batches.size + sketch.now.shape.batchCount := by
  rw [draws.adds.nodeCount, draws.adds.batchCount, Subtree.length_nodes,
    draws.adds.unfolds.length_batches]
  exact ⟨rfl, rfl⟩

theorem Outlined.counts
    (outlined : Outlined select p s shapes tallies before after slot sketch shape counters) :
    shape.nodeCount =
        sketch.now.shape.nodeCount + (sketch.tasks.map fun t => (shapes t.2).nodeCount).sum ∧
      shape.batchCount =
        sketch.now.shape.batchCount + (sketch.tasks.map fun t => (shapes t.2).batchCount).sum := by
  rw [← outlined.filled]
  exact ⟨nodeCount_now shapes sketch, batchCount_now shapes sketch⟩

theorem Outlined.sizes_le
    (outlined : Outlined select p s shapes tallies before after slot sketch shape counters) :
    after.arena.nodes.size ≤ before.arena.nodes.size + shape.nodeCount ∧
      after.arena.batches.size ≤ before.arena.batches.size + shape.batchCount := by
  obtain ⟨nodeSize, batchSize⟩ := outlined.sizes
  obtain ⟨nodes, batches⟩ := outlined.counts
  omega

theorem handOut_outlined (foretold : Foretold select p s shapes tallies)
    (yields : Yields select p s levels triangles bounds shape counters)
    (small : triangles.length < s.taskThreshold) (before : Top n) :
    ∃ slot after sketch, Top.build select p s levels triangles bounds before = .ok (slot, after) ∧
      Outlined select p s shapes tallies before after slot sketch shape counters := by
  let task : Task n := ⟨triangles, bounds, levels⟩
  obtain ⟨rfl, rfl⟩ := foretold task shape counters yields
  refine ⟨_, _, _, ?_, draws_task before task, ?_, rfl, rfl⟩
  · unfold Top.build
    exact if_pos small
  · intro t member
    rw [List.mem_singleton.1 member]
    exact yields

theorem addLeaf_outlined (fits : FitsLeaf triangles.length)
    (room : before.arena.RoomFor (.leaf (Arena.pack (triangles.map Fin.val)))) (depth : Nat)
    (reason : LeafReason) :
    ∃ slot after sketch, before.addLeaf triangles depth reason = .ok (slot, after) ∧
      Outlined select p s shapes tallies before after slot sketch
        (.leaf (Arena.pack (triangles.map Fin.val))) (.ofLeaf depth triangles.length reason) := by
  obtain ⟨link, arena, range, added, adds, counted⟩ := addLeaf_adds fits room depth reason
  refine ⟨.ready link, { before with arena }, .leaf range _, ?_, draws_leaf adds, nofun, rfl, counted⟩
  simp only [Top.addLeaf, added, ok_bind]
  rfl

def Top.counting (top : Top n) (medians : Nat) : Top n :=
  { top with arena := top.arena.counting medians }

theorem outlined_of_counting {medians : Nat}
    (outlined : Outlined select p s shapes tallies (before.counting medians) after slot sketch shape
      counters) :
    Outlined select p s shapes tallies before after slot sketch shape
      (counters.addMedianSplits medians) where
  toDraws := draws_of_statistics outlined.toDraws
  yields := outlined.yields
  filled := outlined.filled
  counted := by
    rw [BuildStatistics.merge_addMedianSplits]
    exact outlined.counted

theorem setNode_outlined {planned top₁ top₂ : Top n} {leftSlot rightSlot : Slot} {link : Link}
    {leftSketch rightSketch : Sketch n} {leftShape rightShape : Shape}
    {leftCounters rightCounters : BuildStatistics}
    (left : Outlined select p s shapes tallies (reserve planned) top₁ leftSlot leftSketch leftShape
      leftCounters)
    (right : Outlined select p s shapes tallies top₁ top₂ rightSlot rightSketch rightShape
      rightCounters) (refers : link.target = .inner planned.arena.nodes.size) (leftBox rightBox : Box) :
    Outlined select p s shapes tallies planned
      (top₂.setNode planned.arena.nodes.size leftBox leftSlot rightBox rightSlot) (.ready link)
      (.inner planned.arena.nodes.size leftBox leftSketch rightBox rightSketch)
      (.inner leftBox leftShape rightBox rightShape) (leftCounters.merge rightCounters) where
  toDraws := draws_inner left.toDraws right.toDraws refers leftBox rightBox
  yields := by
    rw [Sketch.tasks, List.forall_mem_append]
    exact ⟨left.yields, right.yields⟩
  filled := by rw [fillShape, left.filled, right.filled]
  counted := by
    rw [setNode_arena, Sketch.tasks, List.map_append]
    exact BuildStatistics.mergeAll_both left.counted right.counted

theorem Yields.top_ok (foretold : Foretold select p s shapes tallies)
    (yields : Yields select p s levels triangles bounds shape counters)
    (room : before.arena.RoomFor shape) :
    ∃ slot after sketch, Top.build select p s levels triangles bounds before = .ok (slot, after) ∧
      Outlined select p s shapes tallies before after slot sketch shape counters := by
  induction yields generalizing before with
  | @lowest triangles bounds fits =>
      by_cases small : triangles.length < s.taskThreshold
      · exact handOut_outlined foretold (.lowest fits) small before
      · unfold Top.build
        rw [if_neg small]
        exact addLeaf_outlined fits room maxDepth (reasonAtLimit s triangles.length)
  | @leaf levels medians triangles bounds reason planned fits =>
      by_cases small : triangles.length < s.taskThreshold
      · exact handOut_outlined foretold (.leaf planned fits) small before
      · obtain ⟨slot, after, sketch, added, outlined⟩ := @addLeaf_outlined n select p s triangles shapes
          tallies (before.counting medians) fits ⟨room.nodes, room.batches⟩ (maxDepth - (levels + 1))
          reason
        refine ⟨slot, after, sketch, ?_, outlined_of_counting outlined⟩
        unfold Top.build
        rw [if_neg small]
        simp only [planned before.arena.statistics, ok_bind]
        exact added
  | @inner levels medians triangles left right bounds leftShape rightShape leftCounters rightCounters
      planned yieldsLeft yieldsRight ihLeft ihRight =>
      by_cases small : triangles.length < s.taskThreshold
      · exact handOut_outlined foretold (.inner planned yieldsLeft yieldsRight) small before
      · let counting : Top n := before.counting medians
        have room : counting.arena.RoomFor _ := ⟨room.nodes, room.batches⟩
        obtain ⟨leftSlot, top₁, leftSketch, madeLeft, outlinedLeft⟩ :=
          @ihLeft (reserve counting) room.left
        -- The top has no more of the left side than the whole tree.
        obtain ⟨nodesLeft, batchesLeft⟩ := outlinedLeft.sizes_le
        obtain ⟨rightSlot, top₂, rightSketch, madeRight, outlinedRight⟩ :=
          ihRight (room.right nodesLeft batchesLeft)
        obtain ⟨link, linked, refers⟩ := Link.toInner_ok room.inside
        refine ⟨.ready link, _, _, ?_, outlined_of_counting (setNode_outlined outlinedLeft outlinedRight
          refers (p.boundsOf left) (p.boundsOf right))⟩
        have pushed := Arena.pushNode_ok room.inside .empty
        simp only [counting, Top.counting, Arena.counting, reserve, Arena.reserve]
          at pushed madeLeft linked
        unfold Top.build
        rw [if_neg small]
        simp only [planned before.arena.statistics, ok_bind, pushed, madeLeft, madeRight, linked]
        rfl

/-! ## Tasks -/

structure Task.EndsAs (select : Selection n) (p : Primitives n) (s : Settings) (shape : Shape)
    (counters : BuildStatistics) (task : Task n) (o : Outcome) : Prop where
  ends : task.Ends select p s o
  shape : o.below.shape = shape
  counted : o.part.statistics = ({ parallelTasks := 1 } : BuildStatistics).merge counters

theorem Task.Yields.endsAs {task : Task n} (yields : task.Yields select p s shape counters)
    (room : ({} : Arena).RoomFor shape) : ∃ o, task.EndsAs select p s shape counters o := by
  have room : Task.arena.RoomFor shape := ⟨room.nodes, room.batches⟩
  obtain ⟨root, part, ran, ⟨below, adds, same⟩, counted⟩ := yields.buildSubtree_ok room
  exact ⟨⟨root, part, below⟩, ⟨ran, adds⟩, same, counted⟩

section

variable {tasks : List (Task n)} {outcomes : List Outcome}
  (ended : List.Forall₂ (fun task o => task.EndsAs select p s (shapes task) (tallies task) o) tasks
    outcomes)

include ended

theorem map_ended {α : Type} {f : Task n → α} {g : Outcome → α}
    (same : ∀ task o, task.EndsAs select p s (shapes task) (tallies task) o → f task = g o) :
    outcomes.map g = tasks.map f := by
  have all := List.forall₂_map_left_iff.2 (List.forall₂_map_right_iff.2 (ended.imp same))
  rw [List.forall₂_eq_eq_eq] at all
  exact all.symm

theorem length_nodes_ended : ((outcomes.map (·.below)).flatMap Subtree.nodes).length =
    (tasks.map fun task => (shapes task).nodeCount).sum := by
  rw [List.length_flatMap, List.map_map, map_ended ended]
  intro task o ends
  rw [← ends.shape, ← Subtree.length_nodes]
  rfl

theorem length_batches_ended : ((outcomes.map (·.below)).flatMap Subtree.batches).length =
    (tasks.map fun task => (shapes task).batchCount).sum := by
  rw [List.length_flatMap, List.map_map, map_ended ended]
  intro task o ends
  rw [← ends.shape, ← ends.ends.adds.unfolds.length_batches]
  rfl

theorem statistics_ended : outcomes.map (·.part.statistics) =
    (tasks.map tallies).map (BuildStatistics.merge { parallelTasks := 1 }) := by
  rw [List.map_map]
  exact map_ended ended fun task o ends => ends.counted.symm

end

/-! ## The whole tree -/

def Top.Filled (select : Selection n) (p : Primitives n) (s : Settings) (top : Top n) (a : Arena)
    (f : Fixup) : Prop :=
  ∃ task root part shape node, top.tasks[f.task]? = some task ∧
    task.run select p s = .ok (root, part) ∧ part.Shows root.target shape ∧
      a.nodes[f.node]? = some node ∧ a.Shows (node.child f.side).link.target shape

/-- A top of a tree and its tasks make the same tree as one build of the whole tree. -/
structure SameTree (select : Selection n) (p : Primitives n) (s : Settings) (whole : Arena) (slot : Slot)
    (top : Top n) (a : Arena) : Prop where
  /-- The nodes and batches are the same in whatever order the tasks end. -/
  assembled : ∀ finished, finished.Perm (top.finish select p s) →
    assemble slot top finished p.bounds = .ok a
  shown : ∃ shape, whole.Shows (.inner 0) shape ∧ a.Shows (.inner 0) shape
  statistics : a.statistics = { whole.statistics with parallelTasks := top.tasks.size }
  /-- Each place that waits is noted once, and no other place is. -/
  noted : ∀ node side,
    top.fixups.toList.countP (·.isAt node side) = if top.waits node side then 1 else 0
  /-- Each task has one place. -/
  placed : (top.fixups.toList.map (·.task) ++ slot.tasks).Perm (List.range top.tasks.size)
  filled : ∀ f ∈ top.fixups.toList, top.Filled select p s a f

section

variable (outlined : Outlined select p s shapes tallies {} after slot sketch shape counters)
  (room : ({} : Arena).RoomFor shape)

include outlined room

theorem Outlined.ends : ∀ t ∈ sketch.tasks, ∃ o, t.2.EndsAs select p s (shapes t.2) (tallies t.2) o := by
  intro t member
  apply (outlined.yields t member).endsAs
  obtain ⟨nodes, batches⟩ := outlined.counts
  have fewNodes : (shapes t.2).nodeCount ≤ (sketch.tasks.map fun t => (shapes t.2).nodeCount).sum :=
    List.le_sum_of_mem (List.mem_map_of_mem member)
  have fewBatches : (shapes t.2).batchCount ≤ (sketch.tasks.map fun t => (shapes t.2).batchCount).sum :=
    List.le_sum_of_mem (List.mem_map_of_mem member)
  obtain ⟨roomNodes, roomBatches⟩ := room
  constructor <;> omega

theorem Outlined.roomForTasks {outcomes : List Outcome}
    (ended : List.Forall₂ (fun task o => task.EndsAs select p s (shapes task) (tallies task) o)
      (sketch.tasks.map Prod.snd) outcomes) :
    after.arena.nodes.size + ((outcomes.map (·.below)).flatMap Subtree.nodes).length ≤
        maxIndex + 1 ∧
      after.arena.batches.size + ((outcomes.map (·.below)).flatMap Subtree.batches).length ≤
        maxIndex + 1 := by
  obtain ⟨nodes, batches⟩ := outlined.counts
  obtain ⟨nodeSize, batchSize⟩ := outlined.sizes
  obtain ⟨roomNodes, roomBatches⟩ := room
  rw [length_nodes_ended ended, length_batches_ended ended, List.map_map, List.map_map, nodeSize,
    batchSize, Nat.add_assoc, Nat.add_assoc]
  exact ⟨nodes ▸ roomNodes, batches ▸ roomBatches⟩

/-- Once the tasks have ended, the arena has the sketch with their results. What holds of what a task
has built holds of its result, wherever it is moved to. -/
theorem Outlined.assembles_holding (holds : Task n → Subtree → Prop)
    (moves : ∀ {task below} nodes batches, holds task below → holds task (below.shift nodes batches))
    (held : ∀ task o, task.EndsAs select p s (shapes task) (tallies task) o → holds task o.below) :
    ∃ (root : Link) (a : Arena) (results : Nat → Subtree),
      assemble slot after (after.finish select p s) p.bounds = a.rooted root p.bounds ∧
        (∀ t ∈ sketch.tasks, holds t.2 (results t.1)) ∧ a.Whole root (sketch.fill results) ∧
          a.statistics = { ({} : BuildStatistics).merge counters with
            parallelTasks := after.tasks.size + counters.parallelTasks } := by
  have each : ∀ task ∈ sketch.tasks.map Prod.snd,
      ∃ o, task.EndsAs select p s (shapes task) (tallies task) o :=
    List.forall_mem_map.2 (outlined.ends room)
  obtain ⟨outcomes, ended⟩ := outcomes_of_each each
  obtain ⟨roomNodes, roomBatches⟩ := outlined.roomForTasks room ended
  obtain ⟨root, a, results, assembled, same, whole, counted⟩ := assemble_eq outlined.toDraws moves
    (ended.imp fun task o ends => ⟨ends.ends, held task o ends⟩) roomNodes roomBatches p.bounds
  refine ⟨root, a, results, assembled, same, whole, ?_⟩
  have tasks : after.tasks.toList = sketch.tasks.map Prod.snd := outlined.tasks
  have foretold : after.arena.statistics.mergeAll ((sketch.tasks.map Prod.snd).map tallies) =
      ({} : BuildStatistics).merge counters := by
    rw [List.map_map]
    exact outlined.counted
  rw [counted, statistics_ended ended, BuildStatistics.mergeAll_tasks foretold, List.length_map,
    ← tasks, Array.length_toList]

theorem Outlined.assembles :
    ∃ (root : Link) (a : Arena) (results : Nat → Subtree),
      assemble slot after (after.finish select p s) p.bounds = a.rooted root p.bounds ∧
        (∀ t ∈ sketch.tasks, (results t.1).shape = shapes t.2) ∧ a.Whole root (sketch.fill results) ∧
          a.statistics = { ({} : BuildStatistics).merge counters with
            parallelTasks := after.tasks.size + counters.parallelTasks } :=
  outlined.assembles_holding room (fun task below => below.shape = shapes task)
    (fun nodes batches same => (Subtree.shape_shift _ nodes batches).trans same)
    fun _ _ ends => ends.shape

theorem Outlined.fills {a : Arena} {results : Nat → Subtree}
    (same : ∀ t ∈ sketch.tasks, (results t.1).shape = shapes t.2)
    (unfolds : Unfolds a.nodes a.batches (.inner 0) ((sketch.fill results).rooted bounds)) :
    ∀ f ∈ after.fixups.toList, after.Filled select p s a f := by
  have fixups : after.fixups.toList = sketch.fixups := outlined.fixups
  have placed : ∀ f ∈ sketch.fixups, ∃ node, a.nodes[f.node]? = some node ∧ ∃ t ∈ sketch.tasks,
      t.1 = f.task ∧ Unfolds a.nodes a.batches (node.child f.side).link.target (results t.1) := by
    cases sketch with
    | leaf range content => exact nofun
    | task id job => exact nofun
    | inner index leftBox left rightBox right => exact unfolds_of_fixup unfolds
  rw [fixups]
  intro f member
  obtain ⟨node, there, t, isTask, number, below⟩ := placed f member
  obtain ⟨o, ends, shape, _⟩ := outlined.ends room t isTask
  refine ⟨t.2, o.root, o.part, shapes t.2, node, ?_, ends.ran, ⟨_, ends.adds.unfolds, shape⟩, there,
    _, below, same t isTask⟩
  rw [← number]
  exact task_of_draws outlined.toDraws t isTask

end

/-- Splitting a build into tasks does not change the tree. Whatever the tree of one build over all
triangles is, the top and its tasks make the same one. -/
theorem build_sameTree (some : 1 ≤ n) (valid : s.validate = .ok ()) :
    (select.Lawful → n ≤ maxTriangles →
      ∃ answer, buildSubtree select p s maxDepth (List.finRange n) p.bounds {} = .ok answer) ∧
    ∀ link plain, buildSubtree select p s maxDepth (List.finRange n) p.bounds {} = .ok (link, plain) →
      ∃ slot top whole a,
        Top.build select p s maxDepth (List.finRange n) p.bounds {} = .ok (slot, top) ∧
          plain.rooted link p.bounds = .ok whole ∧ SameTree select p s whole slot top a := by
  constructor
  · intro lawful few
    have storable : Storable (List.finRange n).length maxDepth := by
      rw [List.length_finRange]
      exact storable_root some few
    obtain ⟨shape, counters, yields, fewNodes, fewBatches⟩ :=
      yields_of_storable lawful (Settings.validate_eq_ok.1 valid) storable p.bounds
    rw [List.length_finRange] at fewNodes fewBatches
    have room : ({} : Arena).RoomFor shape := by
      have limit : n ≤ maxIndex := few
      have noNodes : ({} : Arena).nodes.size = 0 := rfl
      have noBatches : ({} : Arena).batches.size = 0 := rfl
      constructor <;> omega
    obtain ⟨link, plain, built, _⟩ := yields.buildSubtree_ok room
    exact ⟨_, built⟩
  · intro link plain built
    obtain ⟨shape, counters, yields, room⟩ := yields_of_buildSubtree (Nat.zero_le _) built
    obtain ⟨_, _, again, ⟨below, adds, rfl⟩, counted⟩ := yields.buildSubtree_ok room
    cases again.symm.trans built
    obtain ⟨whole, rooted, unfolds, statistics⟩ :=
      Arena.rooted_whole (Arena.whole_of_adds adds rfl rfl) p.bounds
    obtain ⟨shapes, tallies, foretold⟩ := exists_foretold select p s
    have roomTop : ({} : Top n).arena.RoomFor below.shape := room
    obtain ⟨slot, top, sketch, madeTop, outlined⟩ := yields.top_ok foretold roomTop
    obtain ⟨root, merged, results, assembled, same, isWhole, countedTasks⟩ := outlined.assembles room
    obtain ⟨a, rootedTasks, unfoldsTasks, statisticsTasks⟩ := Arena.rooted_whole isWhole p.bounds
    refine ⟨slot, top, whole, a, madeTop, rooted, ?_⟩
    constructor
    · intro finished perm
      rw [assemble_of_perm perm, assembled, rootedTasks]
    · refine ⟨below.shape.rooted p.bounds, ⟨_, unfolds, shape_rooted below p.bounds⟩, _, unfoldsTasks,
        ?_⟩
      rw [shape_rooted, shape_fill same, outlined.filled]
    · rw [statisticsTasks, countedTasks, yields.noTasks, statistics, counted]
      rfl
    · exact outlined.count_fixups
    · exact outlined.tasks_perm
    · exact outlined.fills room same unfoldsTasks

/-- A triangle across the first axis. Three of them in a row become a leaf each, built by three tasks. -/
def across (x : UInt32) : Facet :=
  ⟨⟨.ofBits x, .ofBits 0, .ofBits 0⟩, ⟨.ofBits x, .ofBits 0x3f800000, .ofBits 0⟩,
    ⟨.ofBits x, .ofBits 0, .ofBits 0x3f800000⟩⟩

def row : Primitives 3 := .ofSource (.ofArray #[across 0, across 0x41200000, across 0x41a00000])

def oneEach : Settings := { strategy := .binned, leafThreshold := 1, binCount := 2, taskThreshold := 2 }

theorem build_sameTree_row :
    ∃ link plain slot top whole a,
      buildSubtree .sorted row oneEach maxDepth (List.finRange 3) row.bounds {} = .ok (link, plain) ∧
        Top.build .sorted row oneEach maxDepth (List.finRange 3) row.bounds {} = .ok (slot, top) ∧
          top.tasks.size = 3 ∧ plain.rooted link row.bounds = .ok whole ∧
            SameTree .sorted row oneEach whole slot top a := by
  obtain ⟨total, same⟩ := @build_sameTree 3 .sorted row oneEach (by decide) (by decide +kernel)
  obtain ⟨⟨link, plain⟩, built⟩ := total Selection.sorted_lawful (by decide)
  obtain ⟨slot, top, whole, a, madeTop, rooted, sameTree⟩ := same link plain built
  obtain ⟨made, again, tasks⟩ := exists_ok_of_any
    (Top.build .sorted row oneEach maxDepth (List.finRange 3) row.bounds {})
    (fun made => made.2.tasks.size == 3) (by decide +kernel)
  cases again.symm.trans madeTop
  exact ⟨link, plain, slot, top, whole, a, built, madeTop, beq_iff_eq.1 tasks, rooted, sameTree⟩

end BoxTree.Binned

import BoxTree.Proofs.Build.Assembly
import BoxTree.Proofs.Build.Binned

/-!
# Binned builds of whole trees

The top of the tree is built as a sketch, the tasks fill it, and the whole is a tree over the source.
-/

namespace BoxTree

theorem Subtree.Holds.shift {source : TriangleSource} {xs : List Nat} {levels : Nat} {s : Subtree}
    (holds : s.Holds source xs levels) (nodes batches : Nat) :
    (s.shift nodes batches).Holds source xs levels where
  present := by
    cases s with
    | missing => exact absurd rfl holds.present
    | leaf range content => exact nofun
    | inner index leftBox left rightBox right => exact nofun
  triangles := by
    rw [triangles_shift]
    exact holds.triangles
  sound := sound_shift s nodes batches holds.sound
  height := by
    rw [height_shift]
    exact holds.height
  fewNodes := by
    rw [nodes_shift, List.length_map]
    exact holds.fewNodes
  fewBatches := by
    rw [batches_shift, List.length_map]
    exact holds.fewBatches

namespace Binned
open Sketch

variable {source : TriangleSource} {select : Selection source.count} {s : Settings} {levels : Nat}
  {triangles left right : List (Fin source.count)} {before after : Top source.count} {slot : Slot}
  {sketch : Sketch source.count}

structure Sketched (source : TriangleSource) (before after : Top source.count)
    (triangles : List (Fin source.count)) (levels : Nat) (slot : Slot)
    (sketch : Sketch source.count) : Prop extends Draws before after slot sketch where
  ready : ∀ t ∈ sketch.tasks, Ready Task.arena t.2.triangles t.2.levels
  /-- Subtrees over the triangles of the tasks complete the sketch to a subtree over all triangles. -/
  complete : ∀ results : Nat → Subtree,
    (∀ t ∈ sketch.tasks, (results t.1).Holds source (t.2.triangles.map Fin.val) t.2.levels) →
      (sketch.fill results).Holds source (triangles.map Fin.val) levels
  fewNodes : sketch.now.nodes.length + 1 ≤ triangles.length
  fewBatches : sketch.now.batches.length ≤ triangles.length

/-! ## The top of the tree -/

theorem Ready.task {n levels : Nat} {triangles : List (Fin n)} {a : Arena}
    (ready : Ready a triangles levels) : Ready Task.arena triangles levels := by
  have room : 0 + triangles.length ≤ maxIndex + 1 := by
    have few : triangles.length ≤ maxIndex := ready.storable.few
    omega
  exact ⟨ready.storable, ready.nodup, ⟨room, room⟩⟩

theorem handOut_sketched (ready : Ready before.arena triangles levels) (bounds : Box) :
    ∃ slot after sketch, before.handOut ⟨triangles, bounds, levels⟩ = (slot, after) ∧
      Sketched source before after triangles levels slot sketch := by
  refine ⟨_, _, _, rfl, draws_task before ⟨triangles, bounds, levels⟩, ?_, ?_, ready.storable.positive,
    Nat.zero_le _⟩
  · intro t member
    rw [List.mem_singleton.1 member]
    exact ready.task
  · exact fun results holds => holds _ (List.mem_singleton_self _)

theorem addLeaf_sketched (ready : Ready before.arena triangles levels)
    (few : triangles.length ≤ maxLeafTriangles) (depth : Nat) (reason : LeafReason) :
    ∃ slot after sketch, before.addLeaf triangles depth reason = .ok (slot, after) ∧
      Sketched source before after triangles levels slot sketch := by
  obtain ⟨link, arena, range, content, added, built⟩ := addLeaf_ok ready few depth reason
  refine ⟨.ready link, { before with arena }, .leaf range content, ?_, draws_leaf built.adds, nofun,
    fun _ _ => built.holds, built.fewNodes, built.fewBatches⟩
  simp only [Top.addLeaf, added, ok_bind]
  rfl

theorem setNode_sketched {planned top₁ top₂ : Top source.count} {leftSlot rightSlot : Slot} {link : Link}
    {leftSketch rightSketch : Sketch source.count} (splits : Splits triangles left right levels)
    (sketchedLeft : Sketched source (reserve planned) top₁ left levels leftSlot leftSketch)
    (sketchedRight : Sketched source top₁ top₂ right levels rightSlot rightSketch)
    (refers : link.target = .inner planned.arena.nodes.size) :
    let p := Primitives.ofSource source
    let index := planned.arena.nodes.size
    Sketched source planned
      (top₂.setNode index (p.boundsOf left) leftSlot (p.boundsOf right) rightSlot) triangles
      (levels + 1) (.ready link) (.inner index (p.boundsOf left) leftSketch (p.boundsOf right)
        rightSketch) := by
  intro p index
  have length := splits.length
  have fewLeft := sketchedLeft.fewNodes
  have fewRight := sketchedRight.fewNodes
  have fewBatchesLeft := sketchedLeft.fewBatches
  have fewBatchesRight := sketchedRight.fewBatches
  refine ⟨draws_inner sketchedLeft.toDraws sketchedRight.toDraws refers _ _, ?_, ?_, ?_, ?_⟩
  · rw [Sketch.tasks, List.forall_mem_append]
    exact ⟨sketchedLeft.ready, sketchedRight.ready⟩
  · intro results holds
    rw [Sketch.tasks, List.forall_mem_append] at holds
    have parts : (left.map Fin.val ++ right.map Fin.val).Perm (triangles.map Fin.val) := by
      rw [← List.map_append]
      exact splits.perm.map Fin.val
    simp only [p, Primitives.boundsOf_ofSource]
    exact Subtree.holds_inner (sketchedLeft.complete results holds.1)
      (sketchedRight.complete results holds.2) parts index
  · simp only [now, fill, Subtree.nodes, List.length_cons, List.length_append] at fewLeft fewRight ⊢
    omega
  · simp only [now, fill, Subtree.batches, List.length_append] at fewBatchesLeft fewBatchesRight ⊢
    omega

theorem sketched_of_statistics {statistics : BuildStatistics}
    (sketched : Sketched source { before with arena := { before.arena with statistics } } after triangles
      levels slot sketch) : Sketched source before after triangles levels slot sketch where
  toDraws := draws_of_statistics sketched.toDraws
  ready := sketched.ready
  complete := sketched.complete
  fewNodes := sketched.fewNodes
  fewBatches := sketched.fewBatches

theorem build_sketched (lawful : select.Lawful) (valid : s.Valid)
    (ready : Ready before.arena triangles levels) (bounds : Box) :
    ∃ slot after sketch,
      Top.build select (Primitives.ofSource source) s levels triangles bounds before = .ok (slot, after) ∧
        Sketched source before after triangles levels slot sketch := by
  induction levels generalizing triangles before bounds with
  | zero =>
      unfold Top.build
      by_cases small : triangles.length < s.taskThreshold
      · rw [if_pos small]
        obtain ⟨slot, after, sketch, handed, sketched⟩ := handOut_sketched ready bounds
        exact ⟨slot, after, sketch, by rw [handed], sketched⟩
      · rw [if_neg small]
        exact addLeaf_sketched ready ready.storable.fits maxDepth _
  | succ levels ih =>
      unfold Top.build
      by_cases small : triangles.length < s.taskThreshold
      · rw [if_pos small]
        obtain ⟨slot, after, sketch, handed, sketched⟩ := handOut_sketched ready bounds
        exact ⟨slot, after, sketch, by rw [handed], sketched⟩
      · rw [if_neg small]
        obtain ⟨step, statistics, made, carriedOut⟩ := @plan_ok _ _ _ _ select
          (Primitives.ofSource source) lawful valid ready.storable bounds before.arena.statistics
        let planned : Top source.count := { before with arena := { before.arena with statistics } }
        have readyPlanned : Ready planned.arena triangles (levels + 1) :=
          ready.of_statistics statistics
        cases step with
        | leaf reason =>
            obtain ⟨slot, after, sketch, added, sketched⟩ := addLeaf_sketched readyPlanned carriedOut
              (maxDepth - (levels + 1)) reason
            refine ⟨slot, after, sketch, ?_, sketched_of_statistics sketched⟩
            simp only [made, ok_bind]
            exact added
        | split left right =>
            obtain ⟨leftSlot, top₁, leftSketch, madeLeft, sketchedLeft⟩ :=
              @ih left (reserve planned) (readyPlanned.left carriedOut)
                ((Primitives.ofSource source).boundsOf left)
            have readyRight : Ready top₁.arena right levels := readyPlanned.right carriedOut
              sketchedLeft.adds sketchedLeft.fewNodes sketchedLeft.fewBatches
            obtain ⟨rightSlot, top₂, rightSketch, madeRight, sketchedRight⟩ :=
              ih readyRight ((Primitives.ofSource source).boundsOf right)
            have room : planned.arena.nodes.size ≤ maxIndex := ready.room.node_le ready.storable.positive
            obtain ⟨link, linked, refers⟩ := Link.toInner_ok room
            refine ⟨.ready link, _, _, ?_, sketched_of_statistics
              (setNode_sketched carriedOut sketchedLeft sketchedRight refers)⟩
            have pushed := Arena.pushNode_ok room .empty
            simp only [planned, reserve, Arena.reserve] at pushed madeLeft linked
            simp only [made, ok_bind, pushed, madeLeft, madeRight, linked]
            rfl

/-! ## The whole tree -/

theorem run_ok (lawful : select.Lawful) (valid : s.Valid) {tasks : List (Task source.count)}
    (ready : ∀ task ∈ tasks, Ready Task.arena task.triangles task.levels) :
    ∃ outcomes, List.Forall₂ (fun task o => task.Ends select (Primitives.ofSource source) s o ∧
      o.below.Holds source (task.triangles.map Fin.val) task.levels) tasks outcomes := by
  apply outcomes_of_each
  intro task member
  obtain ⟨root, part, below, ran, built⟩ := buildSubtree_ok lawful valid (ready task member) task.bounds
  exact ⟨⟨root, part, below⟩, ⟨ran, built.adds⟩, built.holds⟩

theorem room_for_tasks (few : source.count ≤ maxTriangles)
    (sketched : Sketched source {} after (List.finRange source.count) maxDepth slot sketch)
    {below : List Subtree} (holds : List.Forall₂ (fun task s' => Subtree.Holds source
      (task.triangles.map Fin.val) task.levels s') (sketch.tasks.map Prod.snd) below) :
    after.arena.nodes.size + (below.flatMap Subtree.nodes).length ≤ maxIndex + 1 ∧
      after.arena.batches.size + (below.flatMap Subtree.batches).length ≤ maxIndex + 1 := by
  have length : sketch.tasks.length = below.length := by
    rw [← holds.length_eq, List.length_map]
  have whole := sketched.complete _ (of_numbered sketched.numbers holds)
  have fewNodes := whole.fewNodes
  have fewBatches := whole.fewBatches
  rw [(nodes_fill _ sketch).length_eq, List.length_append, flatMap_tasks sketched.toDraws length,
    List.length_map, List.length_finRange] at fewNodes
  rw [(batches_fill _ sketch).length_eq, List.length_append, flatMap_tasks sketched.toDraws length,
    List.length_map, List.length_finRange] at fewBatches
  have nodeCount : after.arena.nodes.size = 0 + sketch.now.nodes.length := sketched.adds.nodeCount
  have batchCount : after.arena.batches.size = 0 + sketch.now.batches.length :=
    sketched.adds.batchCount
  have limit : source.count ≤ maxIndex := few
  omega

theorem assemble_ok (lawful : select.Lawful) (valid : s.Valid) (few : source.count ≤ maxTriangles)
    (sketched : Sketched source {} after (List.finRange source.count) maxDepth slot sketch) :
    ∃ a root, assemble slot after (after.finish select (Primitives.ofSource source) s)
        (Primitives.ofSource source).bounds = .ok a ∧ a.Finished source root := by
  obtain ⟨outcomes, ended⟩ := run_ok lawful valid (List.forall_mem_map.2 sketched.ready)
  obtain ⟨roomNodes, roomBatches⟩ := room_for_tasks few sketched
    (List.forall₂_map_right_iff.2 (ended.imp fun _ _ => And.right))
  obtain ⟨link, whole, results, assembled, holds, isWhole, _⟩ := assemble_eq sketched.toDraws
    (fun nodes batches held => held.shift nodes batches) ended roomNodes roomBatches
    (Primitives.ofSource source).bounds
  have complete := sketched.complete results holds
  rw [map_val_finRange] at complete
  obtain ⟨a, root, rooted, finished⟩ := Arena.rooted_ok isWhole complete
  exact ⟨a, root, by rw [assembled, Primitives.bounds_ofSource, rooted], finished⟩

theorem ready_start (some : 1 ≤ source.count) (few : source.count ≤ maxTriangles) :
    Ready ({} : Top source.count).arena (List.finRange source.count) maxDepth := by
  have limit : source.count ≤ maxIndex + 1 := few.trans (Nat.le_succ maxIndex)
  have room : ({} : Arena).Room source.count :=
    ⟨(Nat.zero_add source.count).trans_le limit, (Nat.zero_add source.count).trans_le limit⟩
  have length : (List.finRange source.count).length = source.count := List.length_finRange
  rw [← length] at some few room
  exact ⟨storable_root some few, List.nodup_finRange _, room⟩

theorem build_ok (lawful : select.Lawful) (valid : s.Valid) (some : 1 ≤ source.count)
    (few : source.count ≤ maxTriangles) :
    ∃ slot top a root, Top.build select (Primitives.ofSource source) s maxDepth
        (List.finRange source.count) (Primitives.ofSource source).bounds {} = .ok (slot, top) ∧
      (∀ finished, finished.Perm (top.finish select (Primitives.ofSource source) s) →
        assemble slot top finished (Primitives.ofSource source).bounds = .ok a) ∧
          a.Finished source root := by
  obtain ⟨slot, top, sketch, built, sketched⟩ :=
    build_sketched lawful valid (ready_start some few) (Primitives.ofSource source).bounds
  obtain ⟨a, root, assembled, isFinished⟩ := assemble_ok lawful valid few sketched
  refine ⟨slot, top, a, root, built, fun finished perm => ?_, isFinished⟩
  rw [assemble_of_perm perm, assembled]

theorem buildAll_ok (lawful : select.Lawful) (valid : s.Valid) (some : 1 ≤ source.count)
    (few : source.count ≤ maxTriangles) :
    ∃ a root, buildAll select (Primitives.ofSource source) s = .ok a ∧ a.Finished source root := by
  obtain ⟨slot, top, a, root, built, assembled, finished⟩ := build_ok lawful valid some few
  refine ⟨a, root, ?_, finished⟩
  rw [buildAll, built]
  exact assembled _ (.refl _)

end Binned

end BoxTree

import BoxTree.Proofs.Build.Parallel
import BoxTree.Proofs.Build.Top
import BoxTree.Proofs.Numbering

/-!
# Shapes of binned builds

What triangles yield is a grown shape. The top of the tree is numbered before the results of the tasks,
each of which is numbered from its root on, so that every node comes before those below it.
-/

namespace BoxTree.Binned
open Sketch

variable {n : Nat} {select : Selection n} {p : Primitives n} {s : Settings} {levels : Nat}
  {triangles : List (Fin n)} {bounds : Box} {shape : Shape} {counters : BuildStatistics}

/-! ## Grown shapes -/

theorem Yields.grown (lawful : select.Lawful) (valid : s.Valid)
    (yields : Yields select p s levels triangles bounds shape counters)
    (storable : Storable triangles.length levels) :
    Grown p (fun _ => True) levels triangles shape counters := by
  induction yields with
  | lowest fits =>
      have few := storable.fits
      exact @Grown.leaf n p _ 0 0 _ _ storable.positive few True.intro
  | @leaf levels medians triangles bounds reason planned fits =>
      obtain ⟨_, _, made, carriedOut⟩ := @plan_ok _ _ _ _ select p lawful valid storable bounds {}
      cases made.symm.trans (planned {})
      exact .leaf storable.positive carriedOut True.intro
  | @inner levels medians triangles left right bounds leftShape rightShape leftCounters rightCounters
      planned _ _ ihLeft ihRight =>
      obtain ⟨_, _, made, carriedOut⟩ := @plan_ok _ _ _ _ select p lawful valid storable bounds {}
      cases made.symm.trans (planned {})
      exact .inner carriedOut.perm (ihLeft carriedOut.storableLeft) (ihRight carriedOut.storableRight)

/-! ## Numbers of nodes -/

variable {sketch : Sketch n} {results : Nat → Subtree} {after : Top n} {slot : Slot}

theorem Sketch.ascending_fill {top : Nat} (now : sketch.now.Ascending)
    (inTop : ∀ i ∈ sketch.now.nodes, i < top)
    (later : ∀ t ∈ sketch.tasks, (results t.1).Ascending ∧ ∀ i ∈ (results t.1).nodes, top ≤ i) :
    (sketch.fill results).Ascending := by
  induction sketch with
  | leaf range content => exact True.intro
  | task id job => exact (later (id, job) (List.mem_singleton_self _)).1
  | inner index leftBox left rightBox right ihLeft ihRight =>
      obtain ⟨below, nowLeft, nowRight⟩ := now
      simp only [Sketch.now, fill, Subtree.nodes, List.forall_mem_cons, List.forall_mem_append] at inTop
      obtain ⟨indexInTop, leftInTop, rightInTop⟩ := inTop
      rw [tasks, List.forall_mem_append] at later
      rw [List.forall_mem_append] at below
      have child (side : Sketch n) (earlier : ∀ i ∈ side.now.nodes, index < i)
          (late : ∀ t ∈ side.tasks, ∀ i ∈ (results t.1).nodes, top ≤ i) :
          ∀ i ∈ (side.fill results).nodes, index < i := by
        intro i member
        rw [(nodes_fill results side).mem_iff, List.mem_append, List.mem_flatMap] at member
        rcases member with inNow | ⟨t, isTask, inTask⟩
        · exact earlier i inNow
        · exact indexInTop.trans_le (late t isTask i inTask)
      refine ⟨?_, ihLeft nowLeft leftInTop later.1, ihRight nowRight rightInTop later.2⟩
      rw [List.forall_mem_append]
      exact ⟨child left below.1 fun t isTask => (later.1 t isTask).2,
        child right below.2 fun t isTask => (later.2 t isTask).2⟩

theorem Draws.le_of_result (draws : Draws {} after slot sketch)
    (nodup : (sketch.fill results).nodes.Nodup) :
    ∀ t ∈ sketch.tasks, ∀ i ∈ (results t.1).nodes, sketch.now.nodes.length ≤ i := by
  have nodes : sketch.now.nodes = List.range' 0 sketch.now.nodes.length := draws.adds.nodes
  intro t isTask i member
  rw [(nodes_fill results sketch).nodup_iff, List.nodup_append] at nodup
  by_contra early
  have inTop : i ∈ sketch.now.nodes := by
    rw [nodes, List.mem_range'_1]
    omega
  exact nodup.2.2 i inTop i (List.mem_flatMap.2 ⟨t, isTask, member⟩) rfl

theorem Draws.ascending (draws : Draws {} after slot sketch)
    (nodup : (sketch.fill results).nodes.Nodup)
    (increasing : ∀ t ∈ sketch.tasks, (results t.1).nodes.Pairwise (· < ·)) :
    (sketch.fill results).Ascending := by
  have nodes : sketch.now.nodes = List.range' 0 sketch.now.nodes.length := draws.adds.nodes
  apply @ascending_fill _ _ _ sketch.now.nodes.length
  · apply Subtree.ascending_of_increasing
    rw [nodes]
    exact List.pairwise_lt_range'
  · intro i member
    rw [nodes, List.mem_range'_1] at member
    omega
  · exact fun t isTask => ⟨Subtree.ascending_of_increasing (increasing t isTask),
      draws.le_of_result nodup t isTask⟩

theorem ascending_rooted {below : Subtree} (ascending : below.Ascending) (bounds : Box) :
    (below.rooted bounds).Ascending := by
  cases below with
  | missing => exact ⟨nofun, True.intro, True.intro⟩
  | leaf range content => exact ⟨nofun, True.intro, True.intro⟩
  | inner index leftBox left rightBox right => exact ascending

theorem increasing_shift {below : Subtree} (increasing : below.nodes.Pairwise (· < ·))
    (nodes batches : Nat) : (below.shift nodes batches).nodes.Pairwise (· < ·) := by
  rw [Subtree.nodes_shift, List.pairwise_map]
  exact increasing.imp fun less => Nat.add_lt_add_right less nodes

/-! ## Whole trees -/

theorem roomFor_of_few {count : Nat} (few : count ≤ maxTriangles) (fewNodes : shape.nodeCount + 1 ≤ count)
    (fewBatches : shape.batchCount ≤ count) : ({} : Arena).RoomFor shape := by
  have limit : count ≤ maxIndex := few
  have noNodes : ({} : Arena).nodes.size = 0 := rfl
  have noBatches : ({} : Arena).batches.size = 0 := rfl
  constructor <;> omega

theorem Outlined.assembles_ascending {shapes : Task n → Shape} {tallies : Task n → BuildStatistics}
    (outlined : Outlined select p s shapes tallies {} after slot sketch shape counters)
    (room : ({} : Arena).RoomFor shape) :
    ∃ (link : Link) (merged : Arena) (below : Subtree),
      assemble slot after (after.finish select p s) p.bounds = merged.rooted link p.bounds ∧
      merged.Whole link below ∧ below.shape = shape ∧ below.Ascending ∧
        merged.statistics = { ({} : BuildStatistics).merge counters with
          parallelTasks := after.tasks.size + counters.parallelTasks } := by
  obtain ⟨link, merged, results, assembled, held, whole, counted⟩ := outlined.assembles_holding room
    (fun task below => below.shape = shapes task ∧ below.nodes.Pairwise (· < ·))
    (fun nodes batches held => ⟨(Subtree.shape_shift _ nodes batches).trans held.1,
      increasing_shift held.2 nodes batches⟩)
    (fun task o ends => ⟨ends.shape, ends.ends.adds.nodes ▸ List.pairwise_lt_range'⟩)
  have filled := (shape_fill fun t isTask => (held t isTask).1).trans outlined.filled
  have nodup := whole.nodes.nodup_iff.2 List.nodup_range
  exact ⟨link, merged, sketch.fill results, assembled, whole, filled,
    outlined.ascending nodup fun t isTask => (held t isTask).2, counted⟩

theorem buildAll_grown {source : TriangleSource} {select : Selection source.count}
    (lawful : select.Lawful) (valid : s.Valid) (some : 1 ≤ source.count)
    (few : source.count ≤ maxTriangles) :
    ∃ a root shape counters, buildAll select (.ofSource source) s = .ok a ∧
      a.FullyGrown source (fun _ => True) root shape counters ∧ root.Ascending := by
  obtain ⟨a, root, built, finished⟩ := buildAll_ok lawful valid some few
  have storable : Storable (List.finRange source.count).length maxDepth := by
    rw [List.length_finRange]
    exact storable_root some few
  obtain ⟨shape, counters, yields, fewNodes, fewBatches⟩ :=
    yields_of_storable lawful valid storable (Primitives.ofSource source).bounds
  rw [List.length_finRange] at fewNodes fewBatches
  have room : ({} : Top source.count).arena.RoomFor shape := roomFor_of_few few fewNodes fewBatches
  obtain ⟨shapes, tallies, foretold⟩ := exists_foretold select (.ofSource source) s
  obtain ⟨slot, top, sketch, madeTop, outlined⟩ := yields.top_ok foretold room
  obtain ⟨link, merged, below, assembled, whole, rfl, ascending, counted⟩ :=
    outlined.assembles_ascending room
  have rooted : merged.rooted link (source.boundsOf (List.range source.count)) = .ok a := by
    rw [← Primitives.bounds_ofSource, ← assembled]
    rwa [buildAll, madeTop] at built
  obtain ⟨rfl, fullyGrown⟩ :=
    finished.fullyGrown whole rooted (.refl _) (yields.grown lawful valid storable) counted
  exact ⟨a, _, _, counters, built, fullyGrown, ascending_rooted ascending _⟩

end BoxTree.Binned

import BoxTree.Proofs.Build.Exact
import BoxTree.Proofs.Build.Grown
import BoxTree.Proofs.Build.Sorting
import BoxTree.Proofs.Build.Yields

/-!
# Shapes of exact builds

An exact build adds a grown shape in which the triangles of every leaf are sorted along the first axis.
Nodes and batches follow each other in the order in which the tree is walked from its root.
-/

namespace BoxTree.Exact
open Orderings

variable {n : Nat} {s : Settings} {span left right : Span} {levels : Nat}

/-! ## Steps -/

theorem divide_eq_ok {axis : Axis} {leftCount : Nat} {before after : Progress n}
    {step : Step} (divided : divide span axis leftCount before = .ok (step, after)) :
    step = .split (span.cut leftCount).1 (span.cut leftCount).2 ∧ after.arena = before.arena ∧
      before.orderings.partition span axis leftCount = .ok after.orderings := by
  obtain ⟨orderings, partitioned, same⟩ := bind_eq_ok.1 divided
  cases same
  exact ⟨rfl, rfl, mapError_eq_ok.1 partitioned⟩

theorem plan_eq_ok {p : Primitives n} {bounds : Box} {depth : Nat} {before after : Progress n}
    {step : Step} (made : plan p s span bounds depth before = .ok (step, after)) :
    ∃ medians, after.arena = before.arena.counting medians ∧
      ∀ left right, step = .split left right → ∃ axis leftCount, left = (span.cut leftCount).1 ∧
        right = (span.cut leftCount).2 ∧
          before.orderings.partition span axis leftCount = .ok after.orderings := by
  unfold plan at made
  cases decided : decision p s before.orderings span bounds depth with
  | leaf reason =>
      simp only [decided, Except.ok.injEq, Prod.mk.injEq] at made
      obtain ⟨rfl, rfl⟩ := made
      exact ⟨0, rfl, nofun⟩
  | split best =>
      simp only [decided] at made
      obtain ⟨rfl, arena, partitioned⟩ := divide_eq_ok made
      refine ⟨0, arena, fun left right same => ?_⟩
      cases same
      exact ⟨_, _, rfl, rfl, partitioned⟩
  | median =>
      simp only [decided] at made
      obtain ⟨rfl, arena, partitioned⟩ := divide_eq_ok made
      refine ⟨1, arena, fun left right same => ?_⟩
      cases same
      exact ⟨_, _, rfl, rfl, partitioned⟩

/-! ## Subtrees -/

variable {source : TriangleSource} {before planned after : Progress source.count} {link : Link}

abbrev Sorted (source : TriangleSource) : List (Fin source.count) → Prop :=
  SortedAlong (Primitives.ofSource source).centroids .x

theorem makeLeaf_grown (ready : Ready before span levels) (few : span.length ≤ maxLeafTriangles)
    (sorted : Sorted source (before.orderings.slice .x span))
    (orderings : planned.orderings = before.orderings) {medians : Nat}
    (counted : planned.arena = before.arena.counting medians) {reason : LeafReason}
    (made : makeLeaf span (maxDepth - levels) reason planned = .ok (link, after)) :
    ∃ shape counters, Grown (.ofSource source) (Sorted source) levels
        (before.orderings.slice .x span) shape counters ∧
      before.arena.Gains after.arena link.target shape counters := by
  have length : (before.orderings.slice .x span).length = span.length :=
    length_slice _ _ (ready.agree.inside .x)
  have some := length.symm ▸ ready.storable.positive
  obtain ⟨fits, fewBatches⟩ := Binned.fitsLeaf_of_few some (length.trans_le few)
  have room : (before.arena.counting medians).RoomFor
      (.leaf (Arena.pack ((before.orderings.slice .x span).map Fin.val))) := by
    obtain ⟨nodes, batches⟩ := ready.room
    constructor
    · exact (Nat.le_add_right _ _).trans nodes
    · exact (Nat.add_le_add_left (fewBatches.trans_eq length) _).trans batches
  obtain ⟨_, _, range, added, adds, statistics⟩ :=
    Binned.addLeaf_adds fits room (maxDepth - levels) reason
  obtain ⟨⟨_, arena⟩, again, same⟩ := bind_eq_ok.1 made
  rw [orderings, counted] at again
  cases again.symm.trans added
  cases same
  exact ⟨_, _, .leaf some (length.trans_le few) sorted,
    Arena.Gains.of_counting ⟨⟨_, adds, rfl⟩, statistics⟩⟩

theorem gains_of_counted {a planned a' : Arena} {medians : Nat} {target : Target} {shape : Shape}
    {counters : BuildStatistics} (counted : planned = a.counting medians)
    (gains : planned.Gains a' target shape counters) :
    a.Gains a' target shape (counters.addMedianSplits medians) := by
  subst counted
  exact gains.of_counting

theorem sorted_of_plan (agree : before.orderings.Agree span)
    (sorted : Sorted source (before.orderings.slice .x span)) {bounds : Box} {depth : Nat}
    (made : plan (.ofSource source) s span bounds depth before = .ok (.split left right, planned)) :
    Sorted source (planned.orderings.slice .x left) ∧
      Sorted source (planned.orderings.slice .x right) := by
  obtain ⟨_, _, parts⟩ := plan_eq_ok made
  obtain ⟨axis, leftCount, rfl, rfl, partitioned⟩ := parts left right rfl
  have thins := partition_thins agree.inside partitioned .x
  exact ⟨sorted.sublist thins.left, sorted.sublist thins.right⟩

theorem build_grown (valid : s.Valid) (ready : Ready before span levels)
    (sorted : Sorted source (before.orderings.slice .x span)) {bounds : Box}
    (built : build (.ofSource source) s levels span bounds before = .ok (link, after)) :
    ∃ shape counters, Grown (.ofSource source) (Sorted source) levels
        (before.orderings.slice .x span) shape counters ∧
      before.arena.Gains after.arena link.target shape counters := by
  induction levels generalizing span before after bounds link with
  | zero =>
      have few : span.length ≤ maxLeafTriangles := ready.storable.fits
      have counted : before.arena = before.arena.counting 0 := rfl
      exact makeLeaf_grown ready few sorted rfl counted built
  | succ levels ih =>
      obtain ⟨step, planned, made, nodes, batches, carriedOut⟩ := plan_ok valid ready bounds
      obtain ⟨medians, counted, _⟩ := plan_eq_ok made
      rw [build, made, ok_bind] at built
      cases step with
      | leaf reason => exact makeLeaf_grown ready carriedOut.2 sorted carriedOut.1 counted built
      | split left right =>
          have room : planned.arena.nodes.size ≤ maxIndex :=
            (ready.room.congr nodes batches).node_le ready.storable.positive
          simp only [Arena.pushNode_ok room, ok_bind] at built
          obtain ⟨⟨leftLink, after₁⟩, madeLeft, built⟩ := bind_eq_ok.1 built
          obtain ⟨⟨rightLink, after₂⟩, madeRight, built⟩ := bind_eq_ok.1 built
          obtain ⟨_, linked, same⟩ := bind_eq_ok.1 built
          cases same
          obtain ⟨_, again, refers⟩ := Link.toInner_ok room
          cases again.symm.trans linked
          obtain ⟨sortedLeft, sortedRight⟩ := sorted_of_plan ready.agree sorted made
          have readyLeft := ready_left carriedOut nodes batches ready
          obtain ⟨_, _, leftBelow, again, builtLeft⟩ := build_ok valid readyLeft
            ((Primitives.ofSource source).boundsOf (planned.orderings.slice .x left))
          cases again.symm.trans madeLeft
          obtain ⟨leftShape, leftCounters, grownLeft, gainsLeft⟩ := ih readyLeft sortedLeft madeLeft
          -- The left child moved triangles of its own span only.
          have kept : after₁.orderings.slice .x right = planned.orderings.slice .x right :=
            builtLeft.within.slice (.inr carriedOut.meets.le) .x
          rw [← kept] at sortedRight
          have readyRight := ready_right carriedOut nodes batches ready builtLeft
          obtain ⟨rightShape, rightCounters, grownRight, gainsRight⟩ :=
            ih readyRight sortedRight madeRight
          rw [kept] at grownRight
          exact ⟨_, _, .inner carriedOut.triangles grownLeft grownRight,
            gains_of_counted counted (Arena.gains_inner gainsLeft gainsRight refers)⟩

/-! ## Whole trees -/

theorem nodes_rooted {below : Subtree} (bounds : Box)
    (inOrder : below.nodes = List.range' 0 below.nodes.length) :
    (below.rooted bounds).nodes = List.range (below.rooted bounds).nodes.length := by
  cases below with
  | missing => rfl
  | leaf range content => rfl
  | inner index leftBox left rightBox right => rwa [List.range_eq_range']

theorem batches_rooted (below : Subtree) (bounds : Box) : (below.rooted bounds).batches = below.batches := by
  cases below with
  | missing => rfl
  | leaf range content => exact List.append_nil _
  | inner index leftBox left rightBox right => rfl

theorem buildAll_grown (valid : s.Valid) (some : 1 ≤ source.count) (few : source.count ≤ maxTriangles) :
    ∃ a root shape counters, buildAll (.ofSource source) s = .ok a ∧
      a.FullyGrown source (Sorted source) root shape counters ∧
        root.nodes = List.range a.nodes.size ∧ root.batches = List.range a.batches.size := by
  obtain ⟨a, root, built, finished⟩ := buildAll_ok valid some few
  obtain ⟨⟨link, after⟩, made, rooted⟩ := bind_eq_ok.1 built
  rw [Primitives.bounds_ofSource] at rooted
  obtain ⟨shape, counters, grown, ⟨below, adds, rfl⟩, counted⟩ := build_grown valid
    (ready_start some few) (sorted_ofCentroids _ .x) made
  have counted : after.arena.statistics =
      { ({} : BuildStatistics).merge counters with parallelTasks := 0 + counters.parallelTasks } := counted
  obtain ⟨rfl, fullyGrown⟩ := finished.fullyGrown (Arena.whole_of_adds adds rfl rfl) rooted
    ((agree_ofCentroids _).2 .x) grown counted
  refine ⟨a, _, _, counters, built, fullyGrown, ?_, ?_⟩
  · have length := finished.nodes.length_eq
    rw [List.length_range] at length
    rw [← length]
    exact nodes_rooted _ adds.nodes
  · have length := finished.batches.length_eq
    rw [List.length_range] at length
    rw [← length, batches_rooted, List.range_eq_range']
    exact adds.batches

end BoxTree.Exact

import BoxTree.Proofs.Build.Calls
import BoxTree.Proofs.Build.Sorting
import BoxTree.Proofs.Tree.Query
import BoxTree.Tree

/-!
# Built trees

A build over at most as many triangles as a tree can have ends with a tree, and the tree is valid over
its source.
-/

namespace BoxTree

variable {source : TriangleSource} {select : Binned.Selection source.count} {s : Settings} {a : Arena}
  {root : Subtree}

/-! ## Triangles of leaves -/

theorem Unfolds.mem_triangles {nodes : Array Node} {batches : Array Batch} {target : Target} {s : Subtree}
    (unfolds : Unfolds nodes batches target s) :
    ∀ i ∈ s.batches, ∀ batch, batches[i]? = some batch → ∀ entry ∈ batch.toList, entry ∈ s.triangles := by
  induction unfolds with
  | missing => exact nofun
  | @leaf range content inside =>
      intro i member batch found entry isEntry
      have image : some batch ∈ content.map some := by
        rw [← inside, ← found]
        exact List.mem_map_of_mem member
      obtain ⟨_, inContent, same⟩ := List.mem_map.1 image
      obtain rfl := Option.some.inj same
      rw [Subtree.triangles_leaf, mem_stripped, List.mem_flatMap]
      exact ⟨_, inContent, isEntry⟩
  | inner _ _ _ ihLeft ihRight =>
      intro i member batch found entry isEntry
      rw [Subtree.batches, List.mem_append] at member
      rw [Subtree.triangles_inner, List.mem_append]
      rcases member with inLeft | inRight
      · exact .inl (ihLeft i inLeft batch found entry isEntry)
      · exact .inr (ihRight i inRight batch found entry isEntry)

namespace Tree

theorem gather_ok {batch : Batch} (inside : ∀ entry ∈ batch.toList, entry < source.count) :
    ∃ triangles, gather source batch = .ok triangles := by
  obtain ⟨l0, l1, l2, l3⟩ := batch
  simp only [Lanes.toList, List.forall_mem_cons] at inside
  obtain ⟨in0, in1, in2, in3, _⟩ := inside
  simp only [gather, Lanes.mapM?, TriangleSource.triangle?, dif_pos in0, dif_pos in1, dif_pos in2,
    dif_pos in3]
  exact ⟨_, rfl⟩

theorem ofArena_ok (finished : a.Finished source root) :
    ∃ tree, ofArena source a = .ok tree ∧ tree.nodes = a.nodes ∧ tree.batches = a.batches ∧
      tree.bounds = source.boundsOf (List.range source.count) ∧ tree.triangleCount = source.count ∧
        tree.triangles.size = tree.batches.size := by
  have gathered : ∀ batch ∈ a.batches.toList, ∃ triangles, gather source batch = .ok triangles := by
    intro batch member
    obtain ⟨i, bound, found⟩ := List.mem_iff_getElem.1 member
    apply gather_ok
    intro entry isEntry
    have inRoot : i ∈ root.batches := by
      rw [finished.batches.mem_iff, List.mem_range]
      exact bound
    have there : a.batches[i]? = some batch := by
      rw [← Array.getElem?_toList, List.getElem?_eq_getElem bound, found]
    have isTriangle := finished.unfolds.mem_triangles i inRoot batch there entry isEntry
    rwa [finished.triangles.mem_iff, List.mem_range] at isTriangle
  obtain ⟨triangles, mapped, all⟩ := mapM_ok gathered
  refine ⟨{
    bounds := (Primitives.ofSource source).bounds
    nodes := a.nodes
    batches := a.batches
    triangles := triangles.toArray
    triangleCount := source.count
    statistics := { a.statistics with triangleCount := source.count, nodeCount := a.nodes.size } },
    ?_, rfl, rfl, Primitives.bounds_ofSource source, rfl, ?_⟩
  · rw [ofArena, Array.mapM_eq_mapM_toList, mapped]
    rfl
  · exact all.length_eq.symm

/-! ## Arenas -/

theorem arena_ok (lawful : select.Lawful) (valid : s.Valid) (few : source.count ≤ maxTriangles) :
    ∃ a root, arena source select s = .ok a ∧ a.Finished source root := by
  unfold arena
  by_cases empty : source.count = 0
  · rw [if_pos empty]
    exact Arena.rooted_missing source empty
  · rw [if_neg empty]
    have some : 1 ≤ source.count := Nat.one_le_iff_ne_zero.2 empty
    cases s.strategy with
    | exact => exact Exact.buildAll_ok valid some few
    | binned => exact Binned.buildAll_ok lawful valid some few

theorem wellFormed_of_finished {t : Tree} (finished : a.Finished source root) (nodes : t.nodes = a.nodes)
    (batches : t.batches = a.batches) (bounds : t.bounds = source.boundsOf (List.range source.count))
    (count : t.triangleCount = source.count) : t.WellFormed source := by
  refine ⟨count.symm, root, ?_⟩
  constructor
  · rw [nodes, batches]
    exact finished.unfolds
  · rw [nodes]
    exact finished.nodes
  · rw [batches]
    exact finished.batches
  · exact finished.height
  · exact finished.sound
  · rw [bounds]
    exact Box.contains_unionAll_of_subset (List.map_subset _ finished.triangles.subset)
  · exact finished.triangles

theorem buildSelecting_ok (lawful : select.Lawful) (valid : s.Valid)
    (few : source.count ≤ maxTriangles) :
    ∃ tree, buildSelecting source select s = .ok tree ∧ tree.WellFormed source ∧
      tree.triangles.size = tree.batches.size ∧ tree.nodes.size ≤ max (source.count - 1) 1 ∧
        tree.batches.size ≤ source.count := by
  obtain ⟨a, root, made, finished⟩ := arena_ok lawful valid few
  obtain ⟨tree, gathered, nodes, batches, bounds, count, cached⟩ := ofArena_ok finished
  refine ⟨tree, ?_, wellFormed_of_finished finished nodes batches bounds count, cached, ?_, ?_⟩
  · rw [buildSelecting, Settings.validate_eq_ok.2 valid, made]
    have enough : ¬maxTriangles < source.count := not_lt.2 few
    simp only [Except.mapError, ok_bind, if_neg enough, Except.bind, gathered]
  · rw [nodes]
    exact finished.fewNodes
  · rw [batches]
    exact finished.fewBatches

/-! ## The triangles at hand -/

def Caches (t : Tree) (source : TriangleSource) : Prop :=
  ∀ (batch : Nat) (triangles : TriangleBatch), t.triangles[batch]? = some triangles →
    ∃ indices, t.batches[batch]? = some indices ∧ gather source indices = .ok triangles

theorem gather_eq_ok {batch : Batch} {triangles : TriangleBatch} :
    gather source batch = .ok triangles ↔
      ∃ facets, batch.mapM? source.triangle? = some facets ∧ .ofTriangles facets = triangles := by
  unfold gather
  cases batch.mapM? source.triangle? <;> simp

theorem ofArena_eq_ok {t : Tree} (made : ofArena source a = .ok t) :
    t.bounds = (Primitives.ofSource source).bounds ∧ t.triangleCount = source.count ∧
      t.Caches source := by
  obtain ⟨triangles, mapped, same⟩ := bind_eq_ok.1 made
  obtain rfl := Except.ok.inj same
  refine ⟨rfl, rfl, fun batch gathered found => ?_⟩
  rw [Array.mapM_eq_mapM_toList] at mapped
  obtain ⟨list, mappedList, same⟩ := bind_eq_ok.1 mapped
  obtain rfl := Except.ok.inj same
  have all := forall₂_of_mapM mappedList
  obtain ⟨bound, same⟩ := List.getElem?_eq_some_iff.1 (List.getElem?_toArray ▸ found)
  have there : batch < a.batches.toList.length := all.length_eq ▸ bound
  refine ⟨a.batches.toList[batch], ?_, ?_⟩
  · rw [← Array.getElem?_toList, List.getElem?_eq_getElem there]
  · rw [← same]
    exact all.get there bound

theorem buildSelecting_eq_ok {t : Tree} (built : buildSelecting source select s = .ok t) :
    s.Valid ∧ source.count ≤ maxTriangles ∧
      ∃ a, arena source select s = .ok a ∧ ofArena source a = .ok t := by
  unfold buildSelecting at built
  obtain ⟨_, validated, rest⟩ := bind_eq_ok.1 built
  by_cases many : maxTriangles < source.count
  · rw [if_pos many] at rest
    cases rest
  · rw [if_neg many] at rest
    obtain ⟨a, made, gathered⟩ := bind_eq_ok.1 (mapError_eq_ok.1 rest)
    exact ⟨Settings.validate_eq_ok.1 (mapError_eq_ok.1 validated), not_lt.1 many, a, made, gathered⟩

theorem built_ok (lawful : select.Lawful) {t : Tree} (built : buildSelecting source select s = .ok t) :
    t.WellFormed source ∧ t.triangles.size = t.batches.size ∧ t.Caches source ∧
      t.bounds = (Primitives.ofSource source).bounds := by
  obtain ⟨valid, few, a, _, made⟩ := buildSelecting_eq_ok built
  obtain ⟨bounds, _, caches⟩ := ofArena_eq_ok made
  obtain ⟨tree, again, wellFormed, cached, _⟩ := buildSelecting_ok lawful valid few
  obtain rfl := Except.ok.inj (built.symm.trans again)
  exact ⟨wellFormed, cached, caches, bounds⟩

/-- Every built tree is valid over the source that it was built over. -/
theorem validate_built (lawful : select.Lawful) (valid : s.validate = .ok ())
    (few : source.count ≤ maxTriangles) :
    ∃ tree, buildSelecting source select s = .ok tree ∧ tree.validate source = .ok () := by
  obtain ⟨tree, built, wellFormed, _⟩ :=
    buildSelecting_ok lawful (Settings.validate_eq_ok.1 valid) few
  exact ⟨tree, built, ((settles_validate tree source).ok_iff ()).2 wellFormed⟩

def links (t : Tree) : List (Target × Target) :=
  t.nodes.toList.map fun node => (node.left.link.target, node.right.link.target)

def leafEach (strategy : Strategy) : Settings := { strategy, leafThreshold := 1, binCount := 2 }

theorem start_floors : Exact.Progress.start (.ofSource floors) =
    ⟨⟨.replicate (List.finRange floors.count).toArray, .replicate floors.count false, #[]⟩, {}⟩ := by
  have sorted (axis : Axis) :
      SortedAlong (Primitives.ofSource floors).centroids axis (List.finRange floors.count) := by
    cases axis <;> decide +kernel
  rw [Exact.Progress.start, Orderings.ofCentroids_of_sorted sorted]

theorem floors_built (strategy : Strategy) :
    ∃ t, buildSelecting floors Binned.Selection.sorted (leafEach strategy) = .ok t ∧
      t.links = [(.leaf ⟨0, 1⟩, .inner 1), (.leaf ⟨1, 1⟩, .leaf ⟨2, 1⟩)] ∧
      t.nodes.size = 2 ∧ t.batches.size = 3 := by
  have passes : (buildSelecting floors Binned.Selection.sorted (leafEach strategy)).toOption.any
      (fun t => decide (t.links = [(.leaf ⟨0, 1⟩, .inner 1), (.leaf ⟨1, 1⟩, .leaf ⟨2, 1⟩)]) &&
        decide (t.batches.size = 3)) = true := by
    cases strategy with
    | exact =>
        have made : arena floors Binned.Selection.sorted (leafEach .exact) =
            Exact.buildAll (.ofSource floors) (leafEach .exact) := rfl
        rw [buildSelecting, made, Exact.buildAll, start_floors]
        decide +kernel
    | binned => decide +kernel
  obtain ⟨t, built, shape⟩ := exists_ok_of_any _ _ passes
  simp only [Bool.and_eq_true, decide_eq_true_eq] at shape
  have nodes : t.nodes.size = t.links.length := by rw [links, List.length_map, Array.length_toList]
  exact ⟨t, built, shape.1, by rw [nodes, shape.1]; rfl, shape.2⟩

theorem validate_built_floors :
    ∃ t, buildSelecting floors Binned.Selection.sorted (leafEach .binned) = .ok t ∧
      t.validate floors = .ok () ∧ t.nodes.size = 2 ∧ t.batches.size = 3 := by
  obtain ⟨t, built, _, sizes⟩ := floors_built .binned
  obtain ⟨_, again, valid⟩ := @validate_built floors Binned.Selection.sorted (leafEach .binned)
    Binned.Selection.sorted_lawful (by decide +kernel) (by decide)
  cases again.symm.trans built
  exact ⟨t, built, valid, sizes⟩

/-! ## Both builds -/

structure Small (a : Arena) (count : Nat) : Prop where
  nodes : a.nodes.size ≤ max (count - 1) 1
  batches : a.batches.size ≤ count

/-- Both builds come to their end without a fault, and so does every call they make of themselves. A
call has room for its triangles at its depth. The order in which tasks end does not matter. -/
theorem builds_total (lawful : select.Lawful) (valid : s.validate = .ok ())
    (some : 1 ≤ source.count) (few : source.count ≤ maxTriangles) :
    let p := Primitives.ofSource source
    (∃ a, Exact.buildAll p s = .ok a ∧ Small a source.count) ∧
      (∀ depth levels span bounds before, Exact.Called p s depth levels span bounds before →
        Affordable span.length depth ∧
          ∃ answer, Exact.build p s levels span bounds before = .ok answer) ∧
      (∃ slot top a, Binned.Top.build select p s maxDepth (List.finRange source.count) p.bounds {} =
          .ok (slot, top) ∧
        (∀ finished, finished.Perm (top.finish select p s) →
          Binned.assemble slot top finished p.bounds = .ok a) ∧ Small a source.count) ∧
      (∀ depth levels triangles bounds before,
        Binned.CalledTop select p s depth levels triangles bounds before →
          Affordable triangles.length depth ∧
            ∃ answer, Binned.Top.build select p s levels triangles bounds before = .ok answer) ∧
      (∀ depth levels triangles bounds before,
        Binned.CalledSubtree select p s depth levels triangles bounds before →
          Affordable triangles.length depth ∧
            ∃ answer, Binned.buildSubtree select p s levels triangles bounds before = .ok answer) ∧
      ∃ tree, buildSelecting source select s = .ok tree ∧
        tree.nodes.size ≤ max (source.count - 1) 1 ∧ tree.batches.size ≤ source.count := by
  intro p
  have valid := Settings.validate_eq_ok.1 valid
  refine ⟨?_, ?_, ?_, ?_, ?_, ?_⟩
  · obtain ⟨a, root, built, finished⟩ := Exact.buildAll_ok valid some few
    exact ⟨a, built, finished.fewNodes, finished.fewBatches⟩
  · intro depth levels span bounds before called
    obtain ⟨deeper, ready⟩ := Exact.called_ready valid some few called
    obtain ⟨link, after, _, built, _⟩ := Exact.build_ok valid ready bounds
    exact ⟨affordable_of_storable deeper ready.storable, _, built⟩
  · obtain ⟨slot, top, a, root, built, assembled, finished⟩ := Binned.build_ok lawful valid some few
    exact ⟨slot, top, a, built, assembled, finished.fewNodes, finished.fewBatches⟩
  · intro depth levels triangles bounds before called
    obtain ⟨deeper, ready⟩ := Binned.calledTop_ready lawful valid some few called
    obtain ⟨slot, after, _, built, _⟩ := Binned.build_sketched lawful valid ready bounds
    exact ⟨affordable_of_storable deeper ready.storable, _, built⟩
  · intro depth levels triangles bounds before called
    obtain ⟨deeper, ready⟩ := Binned.calledSubtree_ready lawful valid some few called
    obtain ⟨link, after, _, built, _⟩ := Binned.buildSubtree_ok lawful valid ready bounds
    exact ⟨affordable_of_storable deeper ready.storable, _, built⟩
  · obtain ⟨tree, built, _, _, nodes, batches⟩ := buildSelecting_ok lawful valid few
    exact ⟨tree, built, nodes, batches⟩

def inTasks : Settings := { leafEach .binned with taskThreshold := 2 }

theorem exact_plan_floors :
    ∃ left right planned, Exact.plan (.ofSource floors) inTasks ⟨0, 3⟩ (Primitives.ofSource floors).bounds 0
        (.start (.ofSource floors)) = .ok (.split left right, planned) ∧
      left.length = 1 ∧ right.length = 2 := by
  have passes : (Exact.plan (.ofSource floors) inTasks ⟨0, 3⟩ (Primitives.ofSource floors).bounds 0
      (.start (.ofSource floors))).toOption.any (fun made =>
        match made.1 with
        | .split left right => decide (left.length = 1) && decide (right.length = 2)
        | .leaf _ => false) = true := by
    rw [start_floors]
    decide +kernel
  obtain ⟨⟨step, planned⟩, made, parts⟩ := exists_ok_of_any _ _ passes
  cases step with
  | leaf reason => cases parts
  | split left right =>
      simp only [Bool.and_eq_true, decide_eq_true_eq] at parts
      exact ⟨left, right, planned, made, parts⟩

theorem binned_plan_floors :
    ∃ left right statistics, Binned.plan Binned.Selection.sorted (.ofSource floors) inTasks (List.finRange 3)
        (Primitives.ofSource floors).bounds 0 {} = .ok (.split left right, statistics) ∧
      left.length = 1 ∧ right.length = 2 := by
  obtain ⟨⟨step, statistics⟩, made, parts⟩ := exists_ok_of_any
    (Binned.plan Binned.Selection.sorted (.ofSource floors) inTasks (List.finRange 3)
      (Primitives.ofSource floors).bounds 0 {}) (fun made =>
        match made.1 with
        | .split left right => decide (left.length = 1) && decide (right.length = 2)
        | .leaf _ => false) (by decide +kernel)
  cases step with
  | leaf reason => cases parts
  | split left right =>
      simp only [Bool.and_eq_true, decide_eq_true_eq] at parts
      exact ⟨left, right, statistics, made, parts⟩

/-- The floors are split by both builds. In the binned one a task is left for each of them. -/
theorem builds_total_floors :
    let p := Primitives.ofSource floors
    let s := inTasks
    (∃ left right planned, Exact.plan p s ⟨0, 3⟩ p.bounds 0 (.start p) = .ok (.split left right, planned) ∧
      left.length = 1 ∧ Affordable left.length 1 ∧ right.length = 2 ∧ Affordable right.length 1) ∧
    (∃ left right statistics, Binned.plan Binned.Selection.sorted p s (List.finRange 3) p.bounds 0 {} =
        .ok (.split left right, statistics) ∧
      left.length = 1 ∧ Affordable left.length 1 ∧ right.length = 2 ∧ Affordable right.length 1 ∧
      ∃ answer, Binned.buildSubtree Binned.Selection.sorted p s 62 left (p.boundsOf left) Binned.Task.arena =
        .ok answer) ∧
    (∃ slot top a, Binned.Top.build Binned.Selection.sorted p s maxDepth (List.finRange 3) p.bounds {} =
        .ok (slot, top) ∧ top.tasks.size = 3 ∧
      Binned.assemble slot top (top.finish Binned.Selection.sorted p s) p.bounds = .ok a ∧ Small a 3) ∧
    ∃ t, buildSelecting floors Binned.Selection.sorted s = .ok t ∧ t.nodes.size ≤ 2 ∧ t.batches.size ≤ 3 := by
  intro p s
  obtain ⟨_, exact, ⟨slot, top, a, built, assembled, small⟩, tops, subtrees, whole⟩ :=
    @builds_total floors Binned.Selection.sorted s Binned.Selection.sorted_lawful (by decide +kernel) (by decide)
      (by decide)
  refine ⟨?_, ?_, ?_, whole⟩
  · obtain ⟨left, right, planned, made, one, two⟩ := exact_plan_floors
    obtain ⟨fits, ⟨link, after⟩, builtLeft⟩ := exact 1 62 left _ _ (.left .start made)
    obtain ⟨fitsRight, _⟩ := exact 1 62 right _ _ (.right .start made builtLeft)
    exact ⟨left, right, planned, made, one, fits, two, fitsRight⟩
  · obtain ⟨left, right, statistics, made, one, two⟩ := binned_plan_floors
    have large : ¬(List.finRange 3).length < s.taskThreshold := by decide
    have called := @Binned.CalledTop.left _ _ _ s 0 62 _ left right _ _ statistics .start large made
    obtain ⟨fits, ⟨slot, after⟩, builtLeft⟩ := tops 1 62 left _ _ called
    obtain ⟨fitsRight, _⟩ := tops 1 62 right _ _ (.right .start large made builtLeft)
    have below : left.length < s.taskThreshold := one ▸ by decide
    obtain ⟨_, answered⟩ := subtrees 1 62 left _ _ (.task called below)
    exact ⟨left, right, statistics, made, one, fits, two, fitsRight, answered⟩
  · obtain ⟨_, again, tasks⟩ := exists_ok_of_any
      (Binned.Top.build Binned.Selection.sorted p s maxDepth (List.finRange 3) p.bounds {})
      (fun made => made.2.tasks.size == 3) (by decide +kernel)
    cases again.symm.trans built
    exact ⟨slot, top, a, built, beq_iff_eq.1 tasks, assembled _ (.refl _), small⟩

end Tree

end BoxTree

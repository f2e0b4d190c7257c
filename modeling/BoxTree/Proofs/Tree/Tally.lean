import BoxTree.Proofs.Tree.Grown

/-!
# Counters of trees

The counters of a built tree say what the tree is. Every leaf is counted once, with its own depth and
its own triangles, wherever in the tree it was made and by whatever task.
-/

namespace BoxTree

/-! ## Described leaves -/

def fillsOf (leaves : List (List Nat)) : List Nat := leaves.map fun entries => (stripped entries).length

/-- The counters of some leaves, given by their entries, with their batches and depths. -/
structure BuildStatistics.Describes (c : BuildStatistics) (leaves : List (List Nat)) (batches : Nat)
    (depths : List Nat) : Prop where
  leafCount : c.leafCount = leaves.length
  reasons : c.thresholdLeaves + c.costLeaves + c.depthLimitLeaves = leaves.length
  paddedReferences : c.paddedReferences = batchWidth * batches
  leafFill : c.leafFill = .ofList (fillsOf leaves)
  leafDepth : c.leafDepth = .ofList depths

namespace BuildStatistics.Describes

variable {c d : BuildStatistics} {leaves leaves' : List (List Nat)} {batches batches' : Nat}
  {depths depths' : List Nat}

theorem empty : ({} : BuildStatistics).Describes [] 0 [] := ⟨rfl, rfl, rfl, rfl, rfl⟩

theorem addMedianSplits (describes : c.Describes leaves batches depths) (count : Nat) :
    (c.addMedianSplits count).Describes leaves batches depths :=
  ⟨describes.leafCount, describes.reasons, describes.paddedReferences, describes.leafFill,
    describes.leafDepth⟩

theorem ofLeaf {entries : List Nat} {triangles depth : Nat} (kept : (stripped entries).length = triangles)
    (few : triangles ≤ maxLeafTriangles) (shallow : depth ≤ maxDepth) (reason : LeafReason) :
    (BuildStatistics.ofLeaf depth triangles reason).Describes [entries] (batchesFor triangles)
      [depth] where
  leafCount := rfl
  reasons := by cases reason <;> rfl
  paddedReferences := Nat.mul_comm _ _
  leafFill := by
    rw [fillsOf, List.map_singleton, kept]
    exact (Samples.ofList_singleton (few.trans (by decide))).symm
  leafDepth := (Samples.ofList_singleton (shallow.trans (by decide))).symm

theorem merge (first : c.Describes leaves batches depths) (second : d.Describes leaves' batches' depths') :
    (c.merge d).Describes (leaves ++ leaves') (batches + batches') (depths ++ depths') where
  leafCount := by
    rw [List.length_append, ← first.leafCount, ← second.leafCount]
    rfl
  reasons := by
    rw [List.length_append, ← first.reasons, ← second.reasons]
    simp only [BuildStatistics.merge]
    omega
  paddedReferences := by
    rw [Nat.mul_add, ← first.paddedReferences, ← second.paddedReferences]
    rfl
  leafFill := by
    rw [fillsOf, List.map_append, Samples.ofList_append, ← fillsOf, ← fillsOf, ← first.leafFill, ← second.leafFill]
    rfl
  leafDepth := by
    rw [Samples.ofList_append, ← first.leafDepth, ← second.leafDepth]
    rfl

end BuildStatistics.Describes

/-! ## Grown shapes -/

section

variable {n levels : Nat} {p : Primitives n} {inOrder : List (Fin n) → Prop}
  {triangles : List (Fin n)} {shape : Shape} {counters : BuildStatistics}

theorem Grown.describes (grown : Grown p inOrder levels triangles shape counters)
    (nodup : triangles.Nodup) (shallow : levels ≤ maxDepth) :
    counters.Describes shape.leaves shape.batchCount (shape.leafDepths (maxDepth - levels)) := by
  induction grown with
  | @leaf levels medians triangles reason some few ordered =>
      have kept := (congrArg List.length (stripped_leaf some nodup)).trans (List.length_map _)
      have batches : (Shape.leaf (Arena.pack (triangles.map Fin.val))).batchCount =
          batchesFor triangles.length := by
        rw [Shape.batchCount, length_pack, List.length_map]
      rw [batches]
      exact (BuildStatistics.Describes.ofLeaf kept few (Nat.sub_le _ _) reason).addMedianSplits medians
  | @inner levels medians triangles left right leftShape rightShape leftCounters rightCounters parts _ _
      ihLeft ihRight =>
      obtain ⟨nodupLeft, nodupRight⟩ := nodup_parts parts nodup
      have deeper : maxDepth - (levels + 1) + 1 = maxDepth - levels := by omega
      rw [Shape.leaves, Shape.batchCount, Shape.leafDepths, deeper]
      exact ((ihLeft nodupLeft (by omega)).merge (ihRight nodupRight (by omega))).addMedianSplits medians

theorem Grown.leafDepths_le (grown : Grown p inOrder levels triangles shape counters)
    (shallow : levels ≤ maxDepth) : ∀ depth ∈ shape.leafDepths (maxDepth - levels), depth ≤ maxDepth := by
  induction grown with
  | leaf some few ordered =>
      rw [Shape.leafDepths, List.forall_mem_singleton]
      exact Nat.sub_le _ _
  | @inner levels medians triangles left right leftShape rightShape leftCounters rightCounters parts _ _
      ihLeft ihRight =>
      have deeper : maxDepth - (levels + 1) + 1 = maxDepth - levels := by omega
      rw [Shape.leafDepths, List.forall_mem_append, deeper]
      exact ⟨ihLeft (by omega), ihRight (by omega)⟩

end

/-! ## Whole trees -/

namespace Shape

variable (shape : Shape) (bounds : Box)

theorem batchCount_rooted : (shape.rooted bounds).batchCount = shape.batchCount := by
  cases shape with
  | missing => rfl
  | leaf content => rfl
  | inner leftBox left rightBox right => rfl

theorem nodeCount_rooted : (shape.rooted bounds).nodeCount = max shape.nodeCount 1 := by
  cases shape with
  | missing => rfl
  | leaf content => rfl
  | inner leftBox left rightBox right =>
      rw [rooted, nodeCount]
      omega

/-- How deep the leaves of a whole tree are. A tree that is a single leaf has it at the root. -/
def depths : Shape → List Nat
  | inner _ (leaf _) _ missing => [0]
  | shape => shape.leafDepths 0

theorem length_depths (shape : Shape) : shape.depths.length = shape.leaves.length := by
  unfold depths
  split
  · rfl
  · exact length_leafDepths shape 0

theorem depths_inner (leftBox : Box) (left : Shape) (rightBox : Box) {right : Shape}
    (present : right ≠ missing) :
    (inner leftBox left rightBox right).depths = (inner leftBox left rightBox right).leafDepths 0 := by
  cases right with
  | missing => exact absurd rfl present
  | leaf content => cases left <;> rfl
  | inner leftBox' left' rightBox' right' => cases left <;> rfl

end Shape

theorem Grown.depths_rooted {n levels : Nat} {p : Primitives n} {inOrder : List (Fin n) → Prop}
    {triangles : List (Fin n)} {shape : Shape} {counters : BuildStatistics}
    (grown : Grown p inOrder levels triangles shape counters) (bounds : Box) :
    (shape.rooted bounds).depths = shape.leafDepths 0 := by
  cases grown with
  | leaf some few ordered => rfl
  | inner parts grownLeft grownRight =>
      exact Shape.depths_inner _ _ _ grownRight.present

namespace Tree

structure Tally (t : Tree) (source : TriangleSource) (root : Subtree) : Prop
    extends t.statistics.Describes root.leaves t.batches.size root.shape.depths where
  unfolds : Unfolds t.nodes t.batches (.inner 0) root
  triangleCount : t.statistics.triangleCount = source.count
  nodeCount : t.statistics.nodeCount = t.nodes.size
  /-- Every node but the one above a single leaf, or above nothing, has two children. -/
  nodes : t.nodes.size = max (t.statistics.leafCount - 1) 1
  fillCount : t.statistics.leafFill.count = t.statistics.leafCount
  fillSum : t.statistics.leafFill.sum = source.count
  fills : 1 ≤ t.statistics.leafFill.least ∧ t.statistics.leafFill.greatest ≤ maxLeafTriangles
  depthCount : t.statistics.leafDepth.count = t.statistics.leafCount
  depths : t.statistics.leafDepth.greatest ≤ maxDepth
  none : source.count = 0 → t.statistics.leafCount = 0 ∧ t.nodes.size = 1

variable {source : TriangleSource} {select : Binned.Selection source.count} {settings : Settings}
  {t : Tree} {root : Subtree} {a : Arena} {shape : Shape} {counters : BuildStatistics}
  {inOrder : List (Fin source.count) → Prop}

theorem tally_of_finished (stores : t.Stores source a) (finished : a.Finished source root)
    (describes : a.statistics.Describes root.leaves a.batches.size root.shape.depths)
    (nodes : a.nodes.size = max (root.leaves.length - 1) 1)
    (filled : ∀ fill ∈ fillsOf root.leaves, 1 ≤ fill ∧ fill ≤ maxLeafTriangles)
    (shallow : ∀ depth ∈ root.shape.depths, depth ≤ maxDepth) : t.Tally source root := by
  have describes : t.statistics.Describes root.leaves t.batches.size root.shape.depths := by
    rw [stores.statistics, stores.batches]
    exact ⟨describes.leafCount, describes.reasons, describes.paddedReferences, describes.leafFill,
      describes.leafDepth⟩
  have sum : (fillsOf root.leaves).sum = source.count := by
    have length := finished.triangles.length_eq
    rwa [Subtree.triangles, List.length_flatMap, List.length_range] at length
  refine ⟨describes, stores.unfolds finished, ?_, ?_, ?_, ?_, ?_, ⟨?_, ?_⟩, ?_, ?_, fun none => ?_⟩
  · rw [stores.statistics]
  · rw [stores.statistics, stores.nodes]
  · rw [describes.leafCount, stores.nodes, nodes]
  · rw [describes.leafFill, describes.leafCount, Samples.count_ofList, fillsOf, List.length_map]
  · rw [describes.leafFill, Samples.sum_ofList, sum]
  · rw [describes.leafFill]
    exact Samples.le_least_foldl_add (by decide) fun fill member => (filled fill member).1
  · rw [describes.leafFill]
    exact Samples.greatest_foldl_add_le (Nat.zero_le _) fun fill member => (filled fill member).2
  · rw [describes.leafDepth, describes.leafCount, Samples.count_ofList, Shape.length_depths,
      Subtree.leaves_shape]
  · rw [describes.leafDepth]
    exact Samples.greatest_foldl_add_le (Nat.zero_le _) shallow
  · have noLeaves : root.leaves = [] := by
      by_contra nonempty
      obtain ⟨entries, member⟩ := List.exists_mem_of_ne_nil _ nonempty
      have isFill : (stripped entries).length ∈ fillsOf root.leaves := List.mem_map_of_mem member
      have le := List.le_sum_of_mem isFill
      have some := (filled _ isFill).1
      omega
    rw [describes.leafCount, stores.nodes, nodes, noLeaves]
    exact ⟨rfl, rfl⟩

theorem tally_of_none (none : source.count = 0) (stores : t.Stores source .bare) :
    t.Tally source (.inner 0 .empty .missing .empty .missing) :=
  tally_of_finished stores (Arena.finished_bare none) BuildStatistics.Describes.empty rfl nofun nofun

theorem tally_of_grown (stores : t.Stores source a)
    (fullyGrown : a.FullyGrown source inOrder root shape counters) : t.Tally source root := by
  obtain ⟨triangles, all, grown⟩ := fullyGrown.grown
  obtain ⟨tasks, counted⟩ := fullyGrown.counted
  have nodup := all.nodup_iff.2 (List.nodup_finRange _)
  have leaves : root.leaves = shape.leaves := by
    rw [← Subtree.leaves_shape, fullyGrown.rooted, Shape.leaves_rooted]
  have depths : root.shape.depths = shape.leafDepths 0 := by
    rw [fullyGrown.rooted, grown.depths_rooted]
  have nodeCount := fullyGrown.nodes.length_eq
  rw [List.length_range, Subtree.length_nodes, fullyGrown.rooted, Shape.nodeCount_rooted] at nodeCount
  have batchCount := fullyGrown.batches.length_eq
  rw [List.length_range, fullyGrown.unfolds.length_batches, fullyGrown.rooted,
    Shape.batchCount_rooted] at batchCount
  apply tally_of_finished stores fullyGrown.toFinished
  · have described := BuildStatistics.Describes.empty.merge (grown.describes nodup (Nat.le_refl _))
    rw [Nat.sub_self, Nat.zero_add] at described
    rw [counted, leaves, ← batchCount, depths]
    exact ⟨described.leafCount, described.reasons, described.paddedReferences, described.leafFill,
      described.leafDepth⟩
  · rw [← nodeCount, leaves, grown.length_leaves, Nat.add_sub_cancel]
  · rw [leaves, fillsOf, List.forall_mem_map]
    intro entries member
    obtain ⟨part, kept, _, some, few⟩ := grown.leaf_of_mem nodup entries member
    rw [kept, List.length_map]
    exact ⟨some, few⟩
  · have shallow := grown.leafDepths_le (Nat.le_refl _)
    rw [Nat.sub_self] at shallow
    rwa [depths]

theorem tally_of_built (lawful : select.Lawful) (built : buildSelecting source select settings = .ok t) :
    ∃ root, t.Tally source root := by
  obtain ⟨valid, few, a, made, gathered⟩ := buildSelecting_eq_ok built
  have stores := stores_of_ofArena gathered
  by_cases none : source.count = 0
  · cases (arena_of_none none).symm.trans made
    exact ⟨_, tally_of_none none stores⟩
  · obtain ⟨_, root, shape, counters, again, grown⟩ :=
      arena_grown lawful valid (Nat.one_le_iff_ne_zero.2 none) few
    cases again.symm.trans made
    exact ⟨root, tally_of_grown stores grown⟩

/-- The counters of every built tree say what the tree is. -/
theorem tally_built (lawful : select.Lawful) (valid : settings.validate = .ok ())
    (few : source.count ≤ maxTriangles) :
    ∃ t root, buildSelecting source select settings = .ok t ∧ t.Tally source root := by
  obtain ⟨t, built, _⟩ := buildSelecting_ok lawful (Settings.validate_eq_ok.1 valid) few
  obtain ⟨root, tally⟩ := tally_of_built lawful built
  exact ⟨t, root, built, tally⟩

theorem tally_built_floors :
    ∃ t root, buildSelecting floors Binned.Selection.sorted (leafEach .exact) = .ok t ∧ t.Tally floors root ∧
      t.statistics.nodeCount = 2 ∧ t.statistics.leafCount = 3 := by
  obtain ⟨t, built, _, nodes, _⟩ := floors_built .exact
  obtain ⟨_, root, again, tally⟩ := @tally_built floors Binned.Selection.sorted (leafEach .exact)
    Binned.Selection.sorted_lawful (by decide +kernel) (by decide)
  cases again.symm.trans built
  have leaves := tally.nodes
  exact ⟨t, root, built, tally, tally.nodeCount.trans nodes, by omega⟩

end Tree

end BoxTree

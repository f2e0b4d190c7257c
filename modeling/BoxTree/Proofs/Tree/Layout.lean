import BoxTree.Proofs.Tree.Grown

/-!
# Layout of trees

Where the nodes, the batches and the triangles of a built tree stand. An exact build leaves them in the
order in which the tree is walked from its root. A binned build leaves every node before those below it,
however many tasks there are.
-/

namespace BoxTree

/-- A triangle comes before another one along an axis by the mean of its corners, or else by its index. -/
def TriangleSource.Before (source : TriangleSource) (axis : Axis) (i j : Fin source.count) : Prop :=
  let place (k : Fin source.count) :=
    let t := source.triangle k
    Scalar.sortKey ((t.a.get axis + t.b.get axis + t.c.get axis) / 3)
  place i < place j ∨ place i = place j ∧ i < j

theorem Triangle.get_centroid (t : Facet) (axis : Axis) :
    t.centroid.get axis = (t.a.get axis + t.b.get axis + t.c.get axis) / 3 := by
  cases axis <;> rfl

theorem sorted_iff {source : TriangleSource} {axis : Axis} {triangles : List (Fin source.count)} :
    SortedAlong (Primitives.ofSource source).centroids axis triangles ↔
      triangles.Pairwise (source.Before axis) := by
  have centroid (i : Fin source.count) :
      (Primitives.ofSource source).centroids.get i = (source.triangle i).centroid := by
    simp only [Primitives.ofSource, Vector.get, Vector.toArray_ofFn, Array.getElem_ofFn]
    rfl
  simp only [SortedAlong, CentroidKey.Before, CentroidKey.of, centroid, Triangle.get_centroid]
  rfl

namespace Tree

/-- The nodes and the batches of a tree stand in the order in which it is walked from its root, the left
subtree of a node before the right one. The triangles of every leaf are sorted. -/
structure InWalkOrder (t : Tree) (source : TriangleSource) (root : Subtree) : Prop where
  unfolds : Unfolds t.nodes t.batches (.inner 0) root
  nodes : root.nodes = List.range t.nodes.size
  leftChild : ∀ (i : Nat) (node : Node), t.nodes[i]? = some node →
    ∀ j, node.left.link.target = .inner j → j = i + 1
  batches : root.batches = List.range t.batches.size
  leaves : ∀ entries ∈ root.leaves, ∃ triangles : List (Fin source.count),
    stripped entries = triangles.map Fin.val ∧ triangles.Pairwise (source.Before .x)

def LinksForward (t : Tree) : Prop :=
  ∀ (i : Nat) (node : Node), t.nodes[i]? = some node →
    ∀ side j, (node.child side).link.target = .inner j → i < j

variable {source : TriangleSource} {select : Binned.Selection source.count} {s : Settings} {t : Tree}
  {root : Subtree} {a : Arena}

theorem inWalkOrder_of_finished (stores : t.Stores source a) (finished : a.Finished source root)
    (nodes : root.nodes = List.range a.nodes.size) (batches : root.batches = List.range a.batches.size)
    (leaves : ∀ entries ∈ root.leaves, ∃ triangles : List (Fin source.count),
      stripped entries = triangles.map Fin.val ∧ triangles.Pairwise (source.Before .x)) :
    t.InWalkOrder source root where
  unfolds := stores.unfolds finished
  nodes := by rw [nodes, stores.nodes]
  leftChild := by
    intro i node there
    have consecutive : root.Consecutive 0 := by
      rw [Subtree.Consecutive, nodes, List.length_range, List.range_eq_range']
    exact (stores.unfolds finished).left_eq_succ consecutive i (stores.mem_nodes finished there) node
      there
  batches := by rw [batches, stores.batches]
  leaves := leaves

theorem linksForward_of_finished (stores : t.Stores source a) (finished : a.Finished source root)
    (ascending : root.Ascending) : t.LinksForward := fun i node there =>
  (stores.unfolds finished).lt_child ascending i (stores.mem_nodes finished there) node there

theorem layout_of_none (none : source.count = 0) (stores : t.Stores source .bare) :
    (∃ root, t.InWalkOrder source root) ∧ t.LinksForward := by
  have finished := Arena.finished_bare none
  exact ⟨⟨_, inWalkOrder_of_finished stores finished rfl rfl nofun⟩,
    linksForward_of_finished stores finished ⟨nofun, True.intro, True.intro⟩⟩

theorem exact_layout (valid : s.Valid) (some : 1 ≤ source.count) (few : source.count ≤ maxTriangles)
    (made : Exact.buildAll (.ofSource source) s = .ok a) (stores : t.Stores source a) :
    ∃ root, t.InWalkOrder source root := by
  obtain ⟨_, root, shape, counters, again, fullyGrown, nodes, batches⟩ :=
    Exact.buildAll_grown valid some few
  cases again.symm.trans made
  obtain ⟨triangles, all, grown⟩ := fullyGrown.grown
  refine ⟨root, inWalkOrder_of_finished stores fullyGrown.toFinished nodes batches ?_⟩
  rw [← Subtree.leaves_shape, fullyGrown.rooted, Shape.leaves_rooted]
  intro entries member
  obtain ⟨part, kept, sorted, _⟩ :=
    grown.leaf_of_mem (all.nodup_iff.2 (List.nodup_finRange _)) entries member
  exact ⟨part, kept, sorted_iff.1 sorted⟩

theorem binned_layout (lawful : select.Lawful) (valid : s.Valid) (some : 1 ≤ source.count)
    (few : source.count ≤ maxTriangles) (made : Binned.buildAll select (.ofSource source) s = .ok a)
    (stores : t.Stores source a) : t.LinksForward := by
  obtain ⟨_, root, shape, counters, again, fullyGrown, ascending⟩ :=
    Binned.buildAll_grown lawful valid some few
  cases again.symm.trans made
  exact linksForward_of_finished stores fullyGrown.toFinished ascending

/-- Every tree of an exact build is in walking order, and no link of a binned build leads back. -/
theorem layout_built (lawful : select.Lawful) (valid : s.validate = .ok ())
    (few : source.count ≤ maxTriangles) :
    ∃ t, buildSelecting source select s = .ok t ∧
      (s.strategy = .exact → ∃ root, t.InWalkOrder source root) ∧
        (s.strategy = .binned → t.LinksForward) := by
  obtain ⟨t, a, built, made, stores⟩ := built_stores lawful valid few
  have isValid := Settings.validate_eq_ok.1 valid
  refine ⟨t, built, ?_⟩
  by_cases none : source.count = 0
  · cases (arena_of_none none).symm.trans made
    obtain ⟨inOrder, forward⟩ := layout_of_none none stores
    exact ⟨fun _ => inOrder, fun _ => forward⟩
  · have some := Nat.one_le_iff_ne_zero.2 none
    rw [arena, if_neg none] at made
    constructor
    · intro exact
      rw [exact] at made
      exact exact_layout isValid some few made stores
    · intro binned
      rw [binned] at made
      exact binned_layout lawful isValid some few made stores

/-- Two nodes, of which the second one is on the right of the first. -/
theorem layout_built_floors :
    (∃ t root, buildSelecting floors Binned.Selection.sorted (leafEach .exact) = .ok t ∧
      t.InWalkOrder floors root ∧ root.nodes = [0, 1] ∧ root.batches = [0, 1, 2]) ∧
    ∃ t, buildSelecting floors Binned.Selection.sorted (leafEach .binned) = .ok t ∧ t.LinksForward ∧
      t.links = [(.leaf ⟨0, 1⟩, .inner 1), (.leaf ⟨1, 1⟩, .leaf ⟨2, 1⟩)] := by
  constructor
  · obtain ⟨t, built, _, nodes, batches⟩ := floors_built .exact
    obtain ⟨_, again, inOrder, _⟩ := @layout_built floors Binned.Selection.sorted (leafEach .exact)
      Binned.Selection.sorted_lawful (by decide +kernel) (by decide)
    cases again.symm.trans built
    obtain ⟨root, inOrder⟩ := inOrder rfl
    exact ⟨t, root, built, inOrder, by rw [inOrder.nodes, nodes]; rfl, by rw [inOrder.batches, batches]; rfl⟩
  · obtain ⟨t, built, links, _⟩ := floors_built .binned
    obtain ⟨_, again, _, forward⟩ := @layout_built floors Binned.Selection.sorted (leafEach .binned)
      Binned.Selection.sorted_lawful (by decide +kernel) (by decide)
    cases again.symm.trans built
    exact ⟨t, built, forward rfl, links⟩

end Tree

end BoxTree

import BoxTree.Proofs.Tree.Grown

/-!
# Tight boxes

The boxes of a built tree are no larger than they must be. The box of a child is the union of the boxes
of all triangles below it, whatever order they were put into by the splits below.
-/

namespace BoxTree

namespace TriangleSource

variable {source : TriangleSource} {xs ys : List Nat}

theorem boundsOf_around (subset : ys ⊆ xs) : (source.boundsOf xs).Around (source.boundsOf ys) :=
  Box.unionAll_around_of_subset (List.map_subset source.box subset)

theorem boundsOf_same (perm : xs.Perm ys) : (source.boundsOf xs).Same (source.boundsOf ys) :=
  Box.same_unionAll (List.map_subset source.box perm.subset) (List.map_subset source.box perm.symm.subset)

theorem contains_of_same {outer inner : Box} (sameOuter : outer.Same (source.boundsOf xs))
    (sameInner : inner.Same (source.boundsOf ys)) (subset : ys ⊆ xs) : outer.contains inner = true :=
  Box.contains_of_around sameOuter.numeric sameInner.numeric <|
    Box.around_trans sameOuter.around <|
      Box.around_trans (boundsOf_around subset) sameInner.symm.around

end TriangleSource

/-! ## Grown shapes -/

def Shape.Tight (source : TriangleSource) (shape : Shape) : Prop :=
  ∀ child ∈ shape.children, child.2 = .missing ∨ child.1.Same (source.boundsOf child.2.triangles)

variable {source : TriangleSource} {inOrder : List (Fin source.count) → Prop} {levels : Nat}
  {triangles : List (Fin source.count)} {shape : Shape} {counters : BuildStatistics}

theorem Grown.box_same (grown : Grown (.ofSource source) inOrder levels triangles shape counters)
    (nodup : triangles.Nodup) :
    ((Primitives.ofSource source).boundsOf triangles).Same (source.boundsOf shape.triangles) := by
  rw [Primitives.boundsOf_ofSource]
  exact TriangleSource.boundsOf_same (grown.triangles_perm nodup).symm

theorem Grown.tight (grown : Grown (.ofSource source) inOrder levels triangles shape counters)
    (nodup : triangles.Nodup) : shape.Tight source := by
  induction grown with
  | leaf some few ordered => exact nofun
  | inner parts grownLeft grownRight ihLeft ihRight =>
      obtain ⟨nodupLeft, nodupRight⟩ := nodup_parts parts nodup
      rw [Shape.Tight, Shape.children, List.forall_mem_cons, List.forall_mem_cons,
        List.forall_mem_append]
      exact ⟨.inr (grownLeft.box_same nodupLeft), .inr (grownRight.box_same nodupRight),
        ihLeft nodupLeft, ihRight nodupRight⟩

theorem Shape.Tight.rooted {bounds : Box} (tight : shape.Tight source)
    (whole : bounds.Same (source.boundsOf shape.triangles)) : (shape.rooted bounds).Tight source := by
  cases shape with
  | missing => exact List.forall_mem_cons.2 ⟨.inl rfl, List.forall_mem_singleton.2 (.inl rfl)⟩
  | leaf content => exact List.forall_mem_cons.2 ⟨.inr whole, List.forall_mem_singleton.2 (.inl rfl)⟩
  | inner leftBox left rightBox right => exact tight

theorem Arena.FullyGrown.tight {a : Arena} {root : Subtree}
    (fullyGrown : a.FullyGrown source inOrder root shape counters) : root.shape.Tight source := by
  obtain ⟨triangles, all, grown⟩ := fullyGrown.grown
  have nodup := all.nodup_iff.2 (List.nodup_finRange _)
  have everything := (grown.triangles_perm nodup).trans (all.map Fin.val)
  rw [map_val_finRange] at everything
  rw [fullyGrown.rooted]
  exact (grown.tight nodup).rooted (TriangleSource.boundsOf_same everything.symm)

/-! ## Stored boxes -/

variable {nodes : Array Node} {batches : Array Batch} {target : Target} {s : Subtree}

theorem Unfolds.target_eq_missing (unfolds : Unfolds nodes batches target .missing) :
    target = .missing := by
  cases unfolds with
  | missing => rfl

theorem Unfolds.child_of_node (unfolds : Unfolds nodes batches target s) :
    ∀ i ∈ s.nodes, ∀ node, nodes[i]? = some node → ∀ side, ∃ below,
      Unfolds nodes batches (node.child side).link.target below ∧
        ((node.child side).box, below) ∈ s.children := by
  induction unfolds with
  | missing => exact nofun
  | leaf inside => exact nofun
  | @inner index found left right there unfoldsLeft unfoldsRight ihLeft ihRight =>
      simp only [Subtree.nodes, Subtree.children, List.mem_cons, List.mem_append]
      rintro i (rfl | inLeft | inRight) node same side
      · cases there.symm.trans same
        cases side with
        | left => exact ⟨left, unfoldsLeft, .inl rfl⟩
        | right => exact ⟨right, unfoldsRight, .inr (.inl rfl)⟩
      · obtain ⟨below, unfolds, member⟩ := ihLeft i inLeft node same side
        exact ⟨below, unfolds, .inr (.inr (.inl member))⟩
      · obtain ⟨below, unfolds, member⟩ := ihRight i inRight node same side
        exact ⟨below, unfolds, .inr (.inr (.inr member))⟩

theorem Unfolds.child_subset {index : Nat} {node : Node}
    (unfolds : Unfolds nodes batches (.inner index) s) (there : nodes[index]? = some node) (side : Side)
    {below : Subtree} (unfoldsChild : Unfolds nodes batches (node.child side).link.target below) :
    below.triangles ⊆ s.triangles := by
  cases unfolds with
  | inner there' unfoldsLeft unfoldsRight =>
      cases there.symm.trans there'
      rw [Subtree.triangles_inner]
      cases side with
      | left =>
          obtain rfl := unfoldsLeft.unique unfoldsChild
          exact List.subset_append_left _ _
      | right =>
          obtain rfl := unfoldsRight.unique unfoldsChild
          exact List.subset_append_right _ _

namespace Tree

def TightAt (t : Tree) (source : TriangleSource) (child : Child) : Prop :=
  ∃ below, Unfolds t.nodes t.batches child.link.target below ∧
    child.box.Same (source.boundsOf below.triangles)

structure Tight (t : Tree) (source : TriangleSource) : Prop where
  bounds : t.bounds = source.boundsOf (List.range source.count)
  none : source.count = 0 → t.bounds = .empty
  children : ∀ (i : Nat) (node : Node), t.nodes[i]? = some node →
    ∀ side, (node.child side).link.target ≠ .missing → t.TightAt source (node.child side)
  /-- The box of an inner child contains the boxes of both children below it. -/
  nested : ∀ (i : Nat) (node : Node), t.nodes[i]? = some node →
    ∀ side (j : Nat) (inner : Node), (node.child side).link.target = .inner j →
      t.nodes[j]? = some inner → ∀ side', (inner.child side').link.target ≠ .missing →
        (node.child side).box.contains (inner.child side').box = true

variable {select : Binned.Selection source.count} {settings : Settings} {t : Tree} {root : Subtree}
  {a : Arena}

theorem tightAt_of_finished (stores : t.Stores source a) (finished : a.Finished source root)
    (tight : root.shape.Tight source) {i : Nat} {node : Node} (there : t.nodes[i]? = some node)
    (side : Side) (present : (node.child side).link.target ≠ .missing) :
    t.TightAt source (node.child side) := by
  obtain ⟨below, unfolds, member⟩ := (stores.unfolds finished).child_of_node i
    (stores.mem_nodes finished there) node there side
  refine ⟨below, unfolds, ?_⟩
  have image : ((node.child side).box, below.shape) ∈ root.shape.children := by
    rw [Subtree.children_shape]
    exact List.mem_map_of_mem member
  rcases tight _ image with isMissing | same
  · obtain rfl := Subtree.shape_eq_missing.1 isMissing
    exact absurd unfolds.target_eq_missing present
  · rwa [Subtree.triangles_shape] at same

theorem contains_of_tightAt {child : Child} {j : Nat} {inner : Node} {side : Side}
    (tightOuter : t.TightAt source child) (refers : child.link.target = .inner j)
    (there : t.nodes[j]? = some inner) (tightInner : t.TightAt source (inner.child side)) :
    child.box.contains (inner.child side).box = true := by
  obtain ⟨outer, unfoldsOuter, sameOuter⟩ := tightOuter
  obtain ⟨below, unfoldsInner, sameInner⟩ := tightInner
  rw [refers] at unfoldsOuter
  exact TriangleSource.contains_of_same sameOuter sameInner
    (unfoldsOuter.child_subset there side unfoldsInner)

theorem tight_of_finished (stores : t.Stores source a) (finished : a.Finished source root)
    (tight : root.shape.Tight source) : t.Tight source where
  bounds := stores.bounds
  none := by
    intro none
    rw [stores.bounds, none]
    rfl
  children := fun _ _ there => tightAt_of_finished stores finished tight there
  nested := by
    intro i node there side j inner refers thereInner side' present
    have isInner : (node.child side).link.target ≠ .missing := by
      rw [refers]
      exact nofun
    exact contains_of_tightAt (tightAt_of_finished stores finished tight there side isInner) refers
      thereInner (tightAt_of_finished stores finished tight thereInner side' present)

theorem tight_bare : (Subtree.inner 0 .empty .missing .empty .missing).shape.Tight source :=
  List.forall_mem_cons.2 ⟨.inl rfl, List.forall_mem_singleton.2 (.inl rfl)⟩

/-- Every built tree has tight boxes, and those of single triangles go around the corners and no farther. -/
theorem tight_built (lawful : select.Lawful) (valid : settings.validate = .ok ())
    (few : source.count ≤ maxTriangles) :
    ∃ t, buildSelecting source select settings = .ok t ∧ t.Tight source ∧
      ∀ i : Fin source.count, (source.triangle i).BoundedBy (source.box i) := by
  obtain ⟨t, a, built, made, stores⟩ := built_stores lawful valid few
  refine ⟨t, built, ?_, source.boundedBy_box⟩
  by_cases none : source.count = 0
  · cases (arena_of_none none).symm.trans made
    exact tight_of_finished stores (Arena.finished_bare none) tight_bare
  · obtain ⟨_, root, shape, counters, again, grown⟩ := arena_grown lawful
      (Settings.validate_eq_ok.1 valid) (Nat.one_le_iff_ne_zero.2 none) few
    cases again.symm.trans made
    exact tight_of_finished stores grown.toFinished grown.tight

theorem tight_built_floors :
    ∃ t, buildSelecting floors Binned.Selection.sorted (leafEach .binned) = .ok t ∧ t.Tight floors ∧
      t.links = [(.leaf ⟨0, 1⟩, .inner 1), (.leaf ⟨1, 1⟩, .leaf ⟨2, 1⟩)] := by
  obtain ⟨t, built, links, _⟩ := floors_built .binned
  obtain ⟨_, again, tight, _⟩ := @tight_built floors Binned.Selection.sorted (leafEach .binned)
    Binned.Selection.sorted_lawful (by decide +kernel) (by decide)
  cases again.symm.trans built
  exact ⟨t, built, tight, links⟩

end Tree

end BoxTree

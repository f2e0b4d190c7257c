import BoxTree.Proofs.Build.Root
import BoxTree.Proofs.Shape
import BoxTree.Proofs.Statistics

/-!
# Grown shapes

What all builds have in common, however they split: a leaf has the triangles that it was made for, and
a node has its triangles in two parts and the boxes of both parts.
-/

namespace BoxTree

variable {n : Nat}

/-- The shape of a subtree over some triangles with some levels left below it, and what it adds to the
counters. The triangles of each leaf are in an order that the build keeps to. -/
inductive Grown (p : Primitives n) (inOrder : List (Fin n) → Prop) :
    (levels : Nat) → List (Fin n) → Shape → BuildStatistics → Prop
  | leaf {levels medians : Nat} {triangles : List (Fin n)} {reason : LeafReason}
      (some : 1 ≤ triangles.length) (few : triangles.length ≤ maxLeafTriangles)
      (ordered : inOrder triangles) :
      Grown p inOrder levels triangles (.leaf (Arena.pack (triangles.map Fin.val)))
        ((BuildStatistics.ofLeaf (maxDepth - levels) triangles.length reason).addMedianSplits medians)
  | inner {levels medians : Nat} {triangles left right : List (Fin n)} {leftShape rightShape : Shape}
      {leftCounters rightCounters : BuildStatistics} (parts : (left ++ right).Perm triangles)
      (grownLeft : Grown p inOrder levels left leftShape leftCounters)
      (grownRight : Grown p inOrder levels right rightShape rightCounters) :
      Grown p inOrder (levels + 1) triangles
        (.inner (p.boundsOf left) leftShape (p.boundsOf right) rightShape)
        ((leftCounters.merge rightCounters).addMedianSplits medians)

namespace Grown

variable {p : Primitives n} {inOrder : List (Fin n) → Prop} {levels : Nat} {triangles : List (Fin n)}
  {shape : Shape} {counters : BuildStatistics}

theorem imp {inOrder' : List (Fin n) → Prop} (weaker : ∀ xs, inOrder xs → inOrder' xs)
    (grown : Grown p inOrder levels triangles shape counters) :
    Grown p inOrder' levels triangles shape counters := by
  induction grown with
  | leaf some few ordered => exact .leaf some few (weaker _ ordered)
  | inner parts _ _ ihLeft ihRight => exact .inner parts ihLeft ihRight

theorem present (grown : Grown p inOrder levels triangles shape counters) : shape ≠ .missing := by
  cases grown <;> exact nofun

theorem length_leaves (grown : Grown p inOrder levels triangles shape counters) :
    shape.leaves.length = shape.nodeCount + 1 := by
  induction grown with
  | leaf some few ordered => rfl
  | inner parts _ _ ihLeft ihRight =>
      rw [Shape.leaves, List.length_append, ihLeft, ihRight, Shape.nodeCount]
      omega

theorem nodup_parts {left right : List (Fin n)} (parts : (left ++ right).Perm triangles)
    (nodup : triangles.Nodup) : left.Nodup ∧ right.Nodup :=
  have both := List.nodup_append.1 (parts.nodup_iff.2 nodup)
  ⟨both.1, both.2.1⟩

theorem stripped_leaf (some : 1 ≤ triangles.length) (nodup : triangles.Nodup) :
    stripped ((Arena.pack (triangles.map Fin.val)).flatMap Lanes.toList) = triangles.map Fin.val := by
  have nonempty : triangles.map Fin.val ≠ [] := by
    rw [ne_eq, List.map_eq_nil_iff]
    exact List.ne_nil_of_length_pos some
  exact (stripped_pack nonempty (nodup.map Fin.val_injective)).1

theorem triangles_perm (grown : Grown p inOrder levels triangles shape counters)
    (nodup : triangles.Nodup) : shape.triangles.Perm (triangles.map Fin.val) := by
  induction grown with
  | leaf some few ordered =>
      rw [Shape.triangles_leaf, stripped_leaf some nodup]
  | inner parts _ _ ihLeft ihRight =>
      obtain ⟨nodupLeft, nodupRight⟩ := nodup_parts parts nodup
      have both := (ihLeft nodupLeft).append (ihRight nodupRight)
      rw [← List.map_append] at both
      rw [Shape.triangles_inner]
      exact both.trans (parts.map Fin.val)

theorem leaf_of_mem (grown : Grown p inOrder levels triangles shape counters)
    (nodup : triangles.Nodup) :
    ∀ entries ∈ shape.leaves, ∃ part : List (Fin n), stripped entries = part.map Fin.val ∧
      inOrder part ∧ 1 ≤ part.length ∧ part.length ≤ maxLeafTriangles := by
  induction grown with
  | leaf some few ordered =>
      intro entries member
      rw [List.mem_singleton.1 member]
      exact ⟨_, stripped_leaf some nodup, ordered, some, few⟩
  | inner parts _ _ ihLeft ihRight =>
      obtain ⟨nodupLeft, nodupRight⟩ := nodup_parts parts nodup
      rw [Shape.leaves, List.forall_mem_append]
      exact ⟨ihLeft nodupLeft, ihRight nodupRight⟩

end Grown

/-! ## Whole trees -/

theorem shape_rooted (below : Subtree) (bounds : Box) :
    (below.rooted bounds).shape = below.shape.rooted bounds := by
  cases below <;> rfl

structure Arena.FullyGrown (a : Arena) (source : TriangleSource)
    (inOrder : List (Fin source.count) → Prop) (root : Subtree) (shape : Shape)
    (counters : BuildStatistics) : Prop extends a.Finished source root where
  rooted : root.shape = shape.rooted (source.boundsOf (List.range source.count))
  grown : ∃ triangles, triangles.Perm (List.finRange source.count) ∧
    Grown (.ofSource source) inOrder maxDepth triangles shape counters
  counted : ∃ tasks, a.statistics =
    { ({} : BuildStatistics).merge counters with parallelTasks := tasks }

theorem Arena.FullyGrown.anyOrder {a : Arena} {source : TriangleSource}
    {inOrder : List (Fin source.count) → Prop} {root : Subtree} {shape : Shape}
    {counters : BuildStatistics} (fullyGrown : a.FullyGrown source inOrder root shape counters) :
    a.FullyGrown source (fun _ => True) root shape counters := by
  obtain ⟨finished, rooted, ⟨triangles, all, grown⟩, counted⟩ := fullyGrown
  exact ⟨finished, rooted, ⟨triangles, all, grown.imp fun _ _ => True.intro⟩, counted⟩

theorem Arena.Finished.fullyGrown {a a' : Arena} {source : TriangleSource}
    {inOrder : List (Fin source.count) → Prop} {link : Link} {root below : Subtree}
    {triangles : List (Fin source.count)} {counters : BuildStatistics} {tasks : Nat}
    (finished : a'.Finished source root) (whole : a.Whole link below)
    (rooted : a.rooted link (source.boundsOf (List.range source.count)) = .ok a')
    (all : triangles.Perm (List.finRange source.count))
    (grown : Grown (.ofSource source) inOrder maxDepth triangles below.shape counters)
    (counted : a.statistics = { ({} : BuildStatistics).merge counters with parallelTasks := tasks }) :
    root = below.rooted (source.boundsOf (List.range source.count)) ∧
      a'.FullyGrown source inOrder root below.shape counters := by
  obtain ⟨_, again, unfolds, statistics⟩ :=
    rooted_whole whole (source.boundsOf (List.range source.count))
  cases again.symm.trans rooted
  obtain rfl := finished.unfolds.unique unfolds
  exact ⟨rfl, finished, shape_rooted below _, ⟨triangles, all, grown⟩, tasks, statistics.trans counted⟩

end BoxTree

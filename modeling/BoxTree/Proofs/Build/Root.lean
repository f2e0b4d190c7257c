import BoxTree.Proofs.Arena
import BoxTree.Proofs.Build.Subtree

/-!
# Finished arenas

A finished arena has its root first and all triangles of a source below it. A tree that is a single
leaf, or nothing, gets a node of its own.
-/

namespace BoxTree

structure Arena.Finished (a : Arena) (source : TriangleSource) (root : Subtree) : Prop where
  unfolds : Unfolds a.nodes a.batches (.inner 0) root
  nodes : root.nodes.Perm (List.range a.nodes.size)
  batches : root.batches.Perm (List.range a.batches.size)
  height : root.height ≤ maxDepth + 1
  sound : root.Sound source
  triangles : root.triangles.Perm (List.range source.count)
  fewNodes : a.nodes.size ≤ max (source.count - 1) 1
  fewBatches : a.batches.size ≤ source.count

structure Arena.Whole (a : Arena) (link : Link) (below : Subtree) : Prop where
  unfolds : Unfolds a.nodes a.batches link.target below
  first : ∀ index, link.target = .inner index → index = 0
  nodes : below.nodes.Perm (List.range a.nodes.size)
  batches : below.batches.Perm (List.range a.batches.size)

def Subtree.rooted (bounds : Box) : Subtree → Subtree
  | inner index leftBox left rightBox right => inner index leftBox left rightBox right
  | single => inner 0 bounds single .empty missing

variable {a : Arena} {source : TriangleSource} {link : Link} {below : Subtree}

theorem map_val_finRange (n : Nat) : (List.finRange n).map Fin.val = List.range n := by
  apply List.ext_getElem
  · simp only [List.length_map, List.length_finRange, List.length_range]
  · intro i _ _
    simp only [List.getElem_map, List.getElem_finRange, List.getElem_range, Fin.val_cast]

theorem Primitives.bounds_ofSource (source : TriangleSource) :
    (ofSource source).bounds = source.boundsOf (List.range source.count) := by
  have boxes : (Vector.ofFn fun i => (source.triangle i).boundingBox).toList =
      (List.range source.count).map source.box := by
    rw [Vector.toList_ofFn, List.ofFn_eq_map, ← map_val_finRange, List.map_map]
    exact List.map_congr_left fun i _ => (TriangleSource.box_eq i.isLt).symm
  exact congrArg Box.unionAll boxes

theorem Unfolds.eq_zero {nodes : Array Node} {batches : Array Batch} {index count : Nat} {s : Subtree}
    (unfolds : Unfolds nodes batches (.inner index) s)
    (first : s.nodes.head? = (List.range count).head?) : index = 0 := by
  cases unfolds with
  | inner there unfoldsLeft unfoldsRight =>
      rw [Subtree.nodes, List.head?_cons, List.head?_range] at first
      split at first
      · cases first
      · exact Option.some.inj first

namespace Arena

def bare : Arena := { nodes := #[.single ⟨.empty, .missing⟩] }

theorem finished_bare (none : source.count = 0) :
    bare.Finished source (.inner 0 .empty .missing .empty .missing) := by
  constructor
  · exact @Unfolds.inner #[.single ⟨.empty, .missing⟩] #[] 0 (.single ⟨.empty, .missing⟩) _ _ rfl .missing
      .missing
  · exact .refl _
  · exact .refl _
  · decide
  · exact Subtree.sound_inner.2 ⟨⟨Box.isEmpty_empty, Subtree.sound_missing⟩, Box.isEmpty_empty,
      Subtree.sound_missing⟩
  · rw [none]
    exact .refl _
  · exact Nat.le_max_right _ _
  · exact Nat.zero_le _

theorem rooted_missing (source : TriangleSource) (empty : source.count = 0) :
    ∃ a root, rooted {} .missing .empty = .ok a ∧ a.Finished source root :=
  ⟨bare, _, rfl, finished_bare empty⟩

theorem Whole.notInner (whole : a.Whole link below) (noNodes : below.nodes = []) (index : Nat) :
    link.target ≠ .inner index := by
  intro refers
  have unfolds := whole.unfolds
  rw [refers] at unfolds
  cases unfolds with
  | inner there unfoldsLeft unfoldsRight => cases noNodes

theorem rooted_single (whole : a.Whole link below) (noNodes : below.nodes = []) (bounds : Box) :
    ∃ a', a.rooted link bounds = .ok a' ∧
      Unfolds a'.nodes a'.batches (.inner 0) (.inner 0 bounds below .empty .missing) ∧
        a'.nodes.size = 1 ∧ a'.batches = a.batches ∧ a'.statistics = a.statistics := by
  have empty : a.nodes = #[] := by
    have length := whole.nodes.length_eq
    rw [noNodes, List.length_nil, List.length_range] at length
    exact Array.size_eq_zero_iff.1 length.symm
  refine ⟨{ a with nodes := #[.single ⟨bounds, link⟩] }, ?_, ?_, rfl, rfl, rfl⟩
  · have isEmpty : a.nodes.isEmpty = true := by rw [empty]; rfl
    have pushed := pushNode_ok (a := a) (by rw [empty]; exact Nat.zero_le _) (.single ⟨bounds, link⟩)
    have notInner := whole.notInner noNodes
    unfold rooted
    split
    · exact absurd ‹_› (notInner _)
    · exact absurd ‹_› (notInner _)
    · rw [if_pos isEmpty, pushed, ok_bind, empty]
      rfl
  · apply @Unfolds.inner #[.single ⟨bounds, link⟩] a.batches 0 (.single ⟨bounds, link⟩) _ _ rfl
    · exact whole.unfolds.congr (by rw [noNodes]; exact nofun) fun _ _ => rfl
    · exact .missing

theorem rooted_inner {index : Nat} {leftBox rightBox : Box} {left right : Subtree}
    (whole : a.Whole link (.inner index leftBox left rightBox right)) (bounds : Box) :
    a.rooted link bounds = .ok a ∧
      Unfolds a.nodes a.batches (.inner 0) (.inner index leftBox left rightBox right) := by
  have unfolds := whole.unfolds
  obtain ⟨_, refers, _⟩ := unfolds.of_inner
  obtain rfl := whole.first index refers
  rw [refers] at unfolds
  exact ⟨by simp only [rooted, refers], unfolds⟩

theorem rooted_whole (whole : a.Whole link below) (bounds : Box) :
    ∃ a', a.rooted link bounds = .ok a' ∧
      Unfolds a'.nodes a'.batches (.inner 0) (below.rooted bounds) ∧
        a'.statistics = a.statistics := by
  have single (noNodes : below.nodes = []) := rooted_single whole noNodes bounds
  cases below with
  | missing =>
      obtain ⟨a', rooted, unfolds, _, _, statistics⟩ := single rfl
      exact ⟨a', rooted, unfolds, statistics⟩
  | leaf range content =>
      obtain ⟨a', rooted, unfolds, _, _, statistics⟩ := single rfl
      exact ⟨a', rooted, unfolds, statistics⟩
  | inner index leftBox left rightBox right =>
      obtain ⟨rooted, unfolds⟩ := rooted_inner whole bounds
      exact ⟨a, rooted, unfolds, rfl⟩

theorem rooted_ok (whole : a.Whole link below)
    (holds : below.Holds source (List.range source.count) maxDepth) :
    ∃ a' root, a.rooted link (source.boundsOf (List.range source.count)) = .ok a' ∧
      a'.Finished source root := by
  have fewBatches : a.batches.size ≤ source.count := by
    have few := holds.fewBatches
    rwa [whole.batches.length_eq, List.length_range, List.length_range] at few
  cases below with
  | missing => exact absurd rfl holds.present
  | leaf range content =>
      obtain ⟨a', rooted, unfolds, size, batches, _⟩ := rooted_single whole rfl
        (source.boundsOf (List.range source.count))
      refine ⟨a', _, rooted, unfolds, ?_, ?_, (by decide : 2 ≤ maxDepth + 1), ?_, ?_, ?_, ?_⟩
      · rw [size]
        exact .refl _
      · rw [batches, Subtree.batches, Subtree.batches, List.append_nil]
        exact whole.batches
      · exact Subtree.sound_inner.2 ⟨⟨holds.covered, holds.sound⟩, Box.isEmpty_empty,
          Subtree.sound_missing⟩
      · rw [Subtree.triangles_inner, Subtree.triangles_missing, List.append_nil]
        exact holds.triangles
      · rw [size]
        exact Nat.le_max_right _ _
      · rwa [batches]
  | inner index leftBox left rightBox right =>
      obtain ⟨rooted, unfolds⟩ := rooted_inner whole (source.boundsOf (List.range source.count))
      refine ⟨a, _, rooted, unfolds, whole.nodes, whole.batches, holds.height, holds.sound,
        holds.triangles, ?_, fewBatches⟩
      have few := holds.fewNodes
      rw [whole.nodes.length_eq, List.length_range, List.length_range] at few
      omega

theorem whole_of_adds {before : Arena} (adds : before.Adds a link.target below)
    (noNodes : before.nodes = #[]) (noBatches : before.batches = #[]) : a.Whole link below := by
  have nodes := adds.nodes
  have nodeCount := adds.nodeCount
  have batches := adds.batches
  have batchCount := adds.batchCount
  rw [noNodes, Array.size_empty] at nodes nodeCount
  rw [noBatches, Array.size_empty] at batches batchCount
  rw [Nat.zero_add] at nodeCount batchCount
  rw [← List.range_eq_range'] at nodes batches
  constructor
  · exact adds.unfolds
  · intro index refers
    have unfolds := adds.unfolds
    rw [refers] at unfolds
    exact unfolds.eq_zero (congrArg List.head? nodes)
  · rw [nodeCount, ← nodes]
  · rw [batchCount, ← batches]

theorem rooted_of_adds {before : Arena} (adds : before.Adds a link.target below)
    (noNodes : before.nodes = #[]) (noBatches : before.batches = #[])
    (holds : below.Holds source (List.range source.count) maxDepth) :
    ∃ a' root, a.rooted link (source.boundsOf (List.range source.count)) = .ok a' ∧
      a'.Finished source root :=
  rooted_ok (whole_of_adds adds noNodes noBatches) holds

end Arena

end BoxTree

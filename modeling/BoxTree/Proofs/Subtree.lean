import BoxTree.Arena
import BoxTree.Proofs.Box
import BoxTree.Proofs.Link
import BoxTree.Source
import Mathlib.Data.List.DropRight

/-!
# Subtrees

What is met by following links through the arrays of nodes and batches, as a finite tree of its own.
Links that form a cycle unfold to no such tree.
-/

namespace BoxTree

/-- What hangs below a link. A leaf keeps its batches, an inner node the boxes of its children. -/
inductive Subtree where
  | missing
  | leaf (range : BatchRange) (content : List Batch)
  | inner (index : Nat) (leftBox : Box) (left : Subtree) (rightBox : Box) (right : Subtree)

/-- The entries of a leaf without the repeats that fill up its last batch: of the last entry and its
repeats at the end, one is left. -/
def stripped (entries : List Nat) : List Nat :=
  match entries.getLast? with
  | none => []
  | some last => entries.rdropWhile (· == last) ++ [last]

def paddingOf (entries : List Nat) : Nat := entries.length - (stripped entries).length

namespace Subtree

def nodes : Subtree → List Nat
  | missing => []
  | leaf _ _ => []
  | inner index _ left _ right => index :: (left.nodes ++ right.nodes)

def batches : Subtree → List Nat
  | missing => []
  | leaf range _ => range.toList
  | inner _ _ left _ right => left.batches ++ right.batches

def leaves : Subtree → List (List Nat)
  | missing => []
  | leaf _ content => [content.flatMap Lanes.toList]
  | inner _ _ left _ right => left.leaves ++ right.leaves

def triangles (s : Subtree) : List Nat := s.leaves.flatMap stripped

def height : Subtree → Nat
  | missing => 0
  | leaf _ _ => 1
  | inner _ _ left _ right => max left.height right.height + 1

def children : Subtree → List (Box × Subtree)
  | missing => []
  | leaf _ _ => []
  | inner _ leftBox left rightBox right =>
    (leftBox, left) :: (rightBox, right) :: (left.children ++ right.children)

@[simp] theorem triangles_missing : missing.triangles = [] := rfl

@[simp] theorem triangles_leaf (range : BatchRange) (content : List Batch) :
    (leaf range content).triangles = stripped (content.flatMap Lanes.toList) := by
  simp only [triangles, leaves, List.flatMap_cons, List.flatMap_nil, List.append_nil]

@[simp] theorem triangles_inner (index : Nat) (leftBox rightBox : Box) (left right : Subtree) :
    (inner index leftBox left rightBox right).triangles = left.triangles ++ right.triangles := by
  simp only [triangles, leaves, List.flatMap_append]

end Subtree

/-- A subtree is what hangs below a target. -/
inductive Unfolds (nodes : Array Node) (batches : Array Batch) : Target → Subtree → Prop
  | missing : Unfolds nodes batches .missing .missing
  | leaf {range : BatchRange} {content : List Batch}
      (inside : range.toList.map (batches[·]?) = content.map some) :
      Unfolds nodes batches (.leaf range) (.leaf range content)
  | inner {index : Nat} {node : Node} {left right : Subtree} (there : nodes[index]? = some node)
      (unfoldsLeft : Unfolds nodes batches node.left.link.target left)
      (unfoldsRight : Unfolds nodes batches node.right.link.target right) :
      Unfolds nodes batches (.inner index) (.inner index node.left.box left node.right.box right)

/-- The box of a triangle, the empty box if a source has no such triangle. -/
def TriangleSource.box (source : TriangleSource) (triangle : Nat) : Box :=
  (source.triangle? triangle).elim .empty Triangle.boundingBox

def TriangleSource.boundsOf (source : TriangleSource) (triangles : List Nat) : Box :=
  Box.unionAll (triangles.map source.box)

/-- A missing child has an empty box, the box of another one contains the triangles below it. -/
def Box.Covers (source : TriangleSource) (box : Box) : Subtree → Prop
  | .missing => box.isEmpty = true
  | below => box.contains (source.boundsOf below.triangles) = true

structure Subtree.Sound (source : TriangleSource) (s : Subtree) : Prop where
  boxes : ∀ child ∈ s.children, child.1.Covers source child.2
  padding : ∀ entries ∈ s.leaves, paddingOf entries < batchWidth

variable {nodes nodes' : Array Node} {batches batches' : Array Batch} {source : TriangleSource}

namespace Subtree

theorem sound_missing : missing.Sound source := ⟨nofun, nofun⟩

theorem sound_leaf {range : BatchRange} {content : List Batch} :
    (leaf range content).Sound source ↔ paddingOf (content.flatMap Lanes.toList) < batchWidth := by
  constructor
  · intro sound
    exact sound.padding _ List.mem_cons_self
  · intro padding
    refine ⟨nofun, fun entries member => ?_⟩
    rw [List.mem_singleton.1 member]
    exact padding

theorem sound_inner {index : Nat} {leftBox rightBox : Box} {left right : Subtree} :
    (inner index leftBox left rightBox right).Sound source ↔
      (leftBox.Covers source left ∧ left.Sound source) ∧
        rightBox.Covers source right ∧ right.Sound source := by
  constructor
  · rintro ⟨boxes, padding⟩
    simp only [children, List.forall_mem_cons, List.forall_mem_append] at boxes
    simp only [leaves, List.forall_mem_append] at padding
    exact ⟨⟨boxes.1, boxes.2.2.1, padding.1⟩, boxes.2.1, boxes.2.2.2, padding.2⟩
  · rintro ⟨⟨boxLeft, soundLeft⟩, boxRight, soundRight⟩
    constructor
    · simp only [children, List.forall_mem_cons, List.forall_mem_append]
      exact ⟨boxLeft, boxRight, soundLeft.boxes, soundRight.boxes⟩
    · simp only [leaves, List.forall_mem_append]
      exact ⟨soundLeft.padding, soundRight.padding⟩

end Subtree

/-! ## Ranges of batches -/

namespace BatchRange

theorem mem_toList {range : BatchRange} {batch : Nat} :
    batch ∈ range.toList ↔ range.first ≤ batch ∧ batch < range.stop := by
  simp only [toList, stop, List.mem_range'_1]

def content (batches : Array Batch) (range : BatchRange) : List Batch :=
  (batches.extract range.first range.stop).toList

theorem map_content {range : BatchRange} (inside : range.stop ≤ batches.size) :
    range.toList.map (batches[·]?) = (range.content batches).map some := by
  unfold stop at inside
  apply List.ext_getElem
  · simp only [toList, content, stop, List.length_map, List.length_range', Array.length_toList,
      Array.size_extract]
    omega
  · intro i boundLeft boundRight
    simp only [toList, List.length_map, List.length_range'] at boundLeft
    have bound : range.first + i < batches.size := by omega
    simp [toList, content, stop, List.getElem_range', bound]

theorem eq_content {range : BatchRange} {content : List Batch} (inside : range.stop ≤ batches.size)
    (found : range.toList.map (batches[·]?) = content.map some) : content = range.content batches :=
  List.map_injective_iff.2 (Option.some_injective _) (found.symm.trans (map_content inside))

theorem lt_size_of_map {range : BatchRange} {content : List Batch}
    (inside : range.toList.map (batches[·]?) = content.map some) {batch : Nat}
    (member : batch ∈ range.toList) : batch < batches.size := by
  have image : batches[batch]? ∈ content.map some := inside ▸ List.mem_map_of_mem member
  obtain ⟨value, _, found⟩ := List.mem_map.1 image
  exact (Array.getElem?_eq_some_iff.1 found.symm).1

theorem stop_le_of_map {range : BatchRange} {content : List Batch} (positive : 0 < range.count)
    (inside : range.toList.map (batches[·]?) = content.map some) : range.stop ≤ batches.size := by
  have last : range.stop - 1 ∈ range.toList := by
    rw [mem_toList, stop]
    omega
  have bound := lt_size_of_map inside last
  omega

end BatchRange

/-! ## Unfolding -/

theorem Unfolds.congr {target : Target} {s : Subtree} (unfolds : Unfolds nodes batches target s)
    (sameNodes : ∀ i ∈ s.nodes, nodes'[i]? = nodes[i]?)
    (sameBatches : ∀ i ∈ s.batches, batches'[i]? = batches[i]?) : Unfolds nodes' batches' target s := by
  induction unfolds with
  | missing => exact .missing
  | leaf inside => exact .leaf ((List.map_congr_left sameBatches).trans inside)
  | inner there _ _ ihLeft ihRight =>
      simp only [Subtree.nodes, List.mem_cons, List.mem_append] at sameNodes
      simp only [Subtree.batches, List.mem_append] at sameBatches
      apply Unfolds.inner ((sameNodes _ (.inl rfl)).trans there)
      · exact ihLeft (fun i member => sameNodes i (.inr (.inl member)))
          (fun i member => sameBatches i (.inl member))
      · exact ihRight (fun i member => sameNodes i (.inr (.inr member)))
          (fun i member => sameBatches i (.inr member))

theorem Unfolds.node_lt {target : Target} {s : Subtree} (unfolds : Unfolds nodes batches target s) :
    ∀ i ∈ s.nodes, i < nodes.size := by
  induction unfolds with
  | missing => exact nofun
  | leaf _ => exact nofun
  | inner there _ _ ihLeft ihRight =>
      simp only [Subtree.nodes, List.mem_cons, List.mem_append]
      rintro i (rfl | below | below)
      · exact (Array.getElem?_eq_some_iff.1 there).1
      · exact ihLeft i below
      · exact ihRight i below

theorem Unfolds.height_pos {target : Target} {s : Subtree} (unfolds : Unfolds nodes batches target s)
    (present : target ≠ .missing) : 0 < s.height := by
  cases unfolds with
  | missing => exact absurd rfl present
  | leaf inside => exact Nat.one_pos
  | inner there left right => exact Nat.succ_pos _

theorem Unfolds.of_inner {target : Target} {index : Nat} {leftBox rightBox : Box} {left right : Subtree}
    (unfolds : Unfolds nodes batches target (.inner index leftBox left rightBox right)) :
    ∃ node, target = .inner index ∧ nodes[index]? = some node ∧ node.left.box = leftBox ∧
      node.right.box = rightBox ∧ Unfolds nodes batches node.left.link.target left ∧
        Unfolds nodes batches node.right.link.target right := by
  cases unfolds with
  | inner there unfoldsLeft unfoldsRight =>
      exact ⟨_, rfl, there, rfl, rfl, unfoldsLeft, unfoldsRight⟩

theorem Unfolds.node_le {link : Link} {s : Subtree} (unfolds : Unfolds nodes batches link.target s) :
    ∀ i ∈ s.nodes, i ≤ maxIndex := by
  induction s generalizing link with
  | missing => exact nofun
  | leaf range content => exact nofun
  | inner index leftBox left rightBox right ihLeft ihRight =>
      obtain ⟨node, refers, _, _, _, unfoldsLeft, unfoldsRight⟩ := unfolds.of_inner
      simp only [Subtree.nodes, List.mem_cons, List.mem_append]
      rintro i (rfl | below | below)
      · exact Link.inner_bound refers
      · exact ihLeft unfoldsLeft i below
      · exact ihRight unfoldsRight i below

theorem Unfolds.batch_lt {target : Target} {s : Subtree} (unfolds : Unfolds nodes batches target s) :
    ∀ i ∈ s.batches, i < batches.size := by
  induction unfolds with
  | missing => exact nofun
  | leaf inside => exact fun i member => BatchRange.lt_size_of_map inside member
  | inner _ _ _ ihLeft ihRight =>
      simp only [Subtree.batches, List.mem_append]
      rintro i (below | below)
      · exact ihLeft i below
      · exact ihRight i below

/-! ## Boxes of triangles -/

/-- A box goes around the corners of a triangle and no farther. Coordinates that are not numbers do not count. -/
structure Triangle.BoundedBy (t : Facet) (b : Box) : Prop where
  inside : ∀ corner ∈ t.toList, ∀ axis, (corner.get axis).isNaN = false →
    b.lower.get axis ≤ corner.get axis ∧ corner.get axis ≤ b.upper.get axis
  lower : ∀ axis, b.lower.get axis = Scalar.infinity ∨
    ∃ corner ∈ t.toList, b.lower.get axis = corner.get axis
  upper : ∀ axis, b.upper.get axis = Scalar.negativeInfinity ∨
    ∃ corner ∈ t.toList, b.upper.get axis = corner.get axis

theorem Triangle.boundedBy_boundingBox (t : Facet) : t.BoundedBy t.boundingBox where
  inside _ member _ number := Box.ofPoints_bounds member number
  lower axis := (Box.ofPoints_reached t.toList axis).1
  upper axis := (Box.ofPoints_reached t.toList axis).2

namespace TriangleSource

theorem box_eq {triangle : Nat} (bound : triangle < source.count) :
    source.box triangle = (source.triangle ⟨triangle, bound⟩).boundingBox := by
  rw [box, triangle?, dif_pos bound, Option.elim_some]

theorem boundedBy_box (source : TriangleSource) (triangle : Fin source.count) :
    (source.triangle triangle).BoundedBy (source.box triangle) := by
  rw [box_eq triangle.isLt]
  exact Triangle.boundedBy_boundingBox _

theorem numeric_boundsOf (source : TriangleSource) (triangles : List Nat) :
    (source.boundsOf triangles).Numeric := by
  rw [boundsOf]
  exact Box.numeric_unionAll _

theorem boundsOf_append (xs ys : List Nat) :
    source.boundsOf (xs ++ ys) = (source.boundsOf xs).union (source.boundsOf ys) := by
  rw [boundsOf, List.map_append, Box.unionAll_append, boundsOf, boundsOf]

theorem empty_union_boundsOf (triangles : List Nat) :
    Box.empty.union (source.boundsOf triangles) = source.boundsOf triangles :=
  Box.empty_union_unionAll _

theorem union_boundsOf_cons {bounds : Box} (numeric : bounds.Numeric) (triangle : Nat)
    (rest : List Nat) :
    bounds.union (source.boundsOf (triangle :: rest)) =
      (bounds.union (source.box triangle)).union (source.boundsOf rest) := by
  rw [boundsOf, ← Box.foldl_union _ numeric, List.map_cons, List.foldl_cons,
    Box.foldl_union _ (Box.numeric_union numeric _), boundsOf]

end TriangleSource

/-! ## Entries of leaves -/

theorem stripped_append_singleton (entries : List Nat) (last : Nat) :
    stripped (entries ++ [last]) = entries.rdropWhile (· == last) ++ [last] := by
  have dropped : (entries ++ [last]).rdropWhile (· == last) = entries.rdropWhile (· == last) :=
    List.rdropWhile_concat_pos _ _ _ (beq_self_eq_true last)
  simp only [stripped, List.getLast?_append, List.getLast?_singleton, Option.some_or, dropped]

end BoxTree

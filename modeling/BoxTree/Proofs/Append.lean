import BoxTree.Proofs.Arena

/-!
# Appending arenas

An arena appended to another one is moved as a whole: what hangs below a target hangs below the moved
target afterwards, and what was there before stays as it was.
-/

namespace BoxTree

def Subtree.shift (nodes batches : Nat) : Subtree → Subtree
  | missing => missing
  | leaf range content => leaf ⟨range.first + batches, range.count⟩ content
  | inner index leftBox left rightBox right =>
    inner (index + nodes) leftBox (left.shift nodes batches) rightBox (right.shift nodes batches)

def Target.InRange (nodes batches : Nat) : Target → Prop
  | missing => True
  | inner node => node < nodes
  | leaf range => range.first < batches

structure Node.Moved (nodes batches : Nat) (node moved : Node) : Prop where
  leftBox : moved.left.box = node.left.box
  leftTarget : moved.left.link.target = node.left.link.target.shift nodes batches
  rightBox : moved.right.box = node.right.box
  rightTarget : moved.right.link.target = node.right.link.target.shift nodes batches

/-! ## Moved subtrees -/

namespace Subtree

variable (s : Subtree) (nodes batches : Nat)

theorem nodes_shift : (s.shift nodes batches).nodes = s.nodes.map (· + nodes) := by
  induction s with
  | missing => rfl
  | leaf range content => rfl
  | inner index leftBox left rightBox right ihLeft ihRight =>
      rw [shift, Subtree.nodes, ihLeft, ihRight, Subtree.nodes, List.map_cons, List.map_append]

theorem batches_shift : (s.shift nodes batches).batches = s.batches.map (· + batches) := by
  induction s with
  | missing => rfl
  | leaf range content =>
      simp only [shift, Subtree.batches, BatchRange.toList, Nat.add_comm _ batches]
      exact (List.map_add_range' _ _ 1).symm
  | inner index leftBox left rightBox right ihLeft ihRight =>
      rw [shift, Subtree.batches, ihLeft, ihRight, Subtree.batches, List.map_append]

theorem leaves_shift : (s.shift nodes batches).leaves = s.leaves := by
  induction s with
  | missing => rfl
  | leaf range content => rfl
  | inner index leftBox left rightBox right ihLeft ihRight =>
      rw [shift, leaves, ihLeft, ihRight, leaves]

theorem triangles_shift : (s.shift nodes batches).triangles = s.triangles := by
  rw [triangles, leaves_shift, triangles]

theorem height_shift : (s.shift nodes batches).height = s.height := by
  induction s with
  | missing => rfl
  | leaf range content => rfl
  | inner index leftBox left rightBox right ihLeft ihRight =>
      rw [shift, height, ihLeft, ihRight, height]

theorem covers_shift {source : TriangleSource} {box : Box} (covers : box.Covers source s) :
    box.Covers source (s.shift nodes batches) := by
  cases s with
  | missing => exact covers
  | leaf range content => exact covers
  | inner index leftBox left rightBox right =>
      change box.contains (source.boundsOf
        ((inner index leftBox left rightBox right).shift nodes batches).triangles) = true
      rw [triangles_shift]
      exact covers

theorem sound_shift {source : TriangleSource} (sound : s.Sound source) :
    (s.shift nodes batches).Sound source := by
  induction s with
  | missing => exact sound_missing
  | leaf range content => exact sound_leaf.2 (sound_leaf.1 sound)
  | inner index leftBox left rightBox right ihLeft ihRight =>
      obtain ⟨⟨boxLeft, soundLeft⟩, boxRight, soundRight⟩ := sound_inner.1 sound
      exact sound_inner.2 ⟨⟨covers_shift left nodes batches boxLeft, ihLeft soundLeft⟩,
        covers_shift right nodes batches boxRight, ihRight soundRight⟩

end Subtree

/-! ## Moved nodes -/

namespace Arena

variable {a other merged : Arena} {nodes batches : Nat}

theorem rebaseNode_ok {node : Node} (fitsLeft : (node.left.link.target.shift nodes batches).Fits)
    (fitsRight : (node.right.link.target.shift nodes batches).Fits) :
    ∃ moved, rebaseNode nodes batches node = .ok moved ∧ node.Moved nodes batches moved := by
  obtain ⟨left, movedLeft, leftTarget⟩ := Link.rebase_ok fitsLeft
  obtain ⟨right, movedRight, rightTarget⟩ := Link.rebase_ok fitsRight
  refine ⟨⟨{ node.left with link := left }, { node.right with link := right }⟩, ?_, rfl, leftTarget, rfl,
    rightTarget⟩
  rw [rebaseNode, movedLeft, movedRight]
  rfl

theorem pushRebased_ok {rest : List Node}
    (fits : ∀ node ∈ rest, (node.left.link.target.shift nodes batches).Fits ∧
      (node.right.link.target.shift nodes batches).Fits) :
    ∃ moved : List Node,
      a.pushRebased nodes batches rest = .ok { a with nodes := a.nodes ++ moved.toArray } ∧
        List.Forall₂ (Node.Moved nodes batches) rest moved := by
  induction rest generalizing a with
  | nil => exact ⟨[], by rw [pushRebased, Array.append_empty], .nil⟩
  | cons node rest ih =>
      rw [List.forall_mem_cons] at fits
      obtain ⟨moved, rebased, isMoved⟩ := rebaseNode_ok fits.1.1 fits.1.2
      obtain ⟨others, pushed, areMoved⟩ := @ih { a with nodes := a.nodes.push moved } fits.2
      refine ⟨moved :: others, ?_, .cons isMoved areMoved⟩
      have joined : a.nodes.push moved ++ others.toArray = a.nodes ++ (moved :: others).toArray := by
        apply Array.toList_inj.1
        simp only [Array.toList_append, Array.toList_push, List.append_assoc, List.singleton_append]
      simp only [pushRebased, rebased, pushed, joined]

/-! ## Merged arenas -/

def Linked (a : Arena) : Prop :=
  ∀ node ∈ a.nodes.toList, node.left.link.target.InRange a.nodes.size a.batches.size ∧
    node.right.link.target.InRange a.nodes.size a.batches.size

structure Merges (a other merged : Arena) : Prop where
  nodeCount : merged.nodes.size = a.nodes.size + other.nodes.size
  batchCount : merged.batches.size = a.batches.size + other.batches.size
  keepsNodes : ∀ i < a.nodes.size, merged.nodes[i]? = a.nodes[i]?
  keepsBatches : ∀ i < a.batches.size, merged.batches[i]? = a.batches[i]?
  movesNodes : ∀ i node, other.nodes[i]? = some node →
    ∃ moved, merged.nodes[i + a.nodes.size]? = some moved ∧
      node.Moved a.nodes.size a.batches.size moved
  movesBatches : ∀ i, merged.batches[i + a.batches.size]? = other.batches[i]?

theorem fits_shift {target : Target} (inRange : target.InRange other.nodes.size other.batches.size)
    (fewNodes : a.nodes.size + other.nodes.size ≤ maxIndex + 1)
    (fewBatches : a.batches.size + other.batches.size ≤ maxIndex + 1) :
    (target.shift a.nodes.size a.batches.size).Fits := by
  cases target with
  | missing => exact True.intro
  | inner node =>
      simp only [Target.InRange] at inRange
      simp only [Target.shift, Target.Fits]
      omega
  | leaf range =>
      simp only [Target.InRange] at inRange
      simp only [Target.shift, Target.Fits]
      omega

theorem append_eq {root : Link} (linked : other.Linked)
    (inRange : root.target.InRange other.nodes.size other.batches.size)
    (fewNodes : a.nodes.size + other.nodes.size ≤ maxIndex + 1)
    (fewBatches : a.batches.size + other.batches.size ≤ maxIndex + 1) :
    ∃ (link : Link) (moved : List Node), link.target = root.target.shift a.nodes.size a.batches.size ∧
      List.Forall₂ (Node.Moved a.nodes.size a.batches.size) other.nodes.toList moved ∧
        a.append other root = .ok (link, {
          nodes := a.nodes ++ moved.toArray
          batches := a.batches ++ other.batches
          statistics := a.statistics.merge other.statistics }) := by
  obtain ⟨moved, pushed, areMoved⟩ := @pushRebased_ok a a.nodes.size a.batches.size other.nodes.toList
    fun node member => ⟨fits_shift (linked node member).1 fewNodes fewBatches,
      fits_shift (linked node member).2 fewNodes fewBatches⟩
  obtain ⟨link, rebased, target⟩ := Link.rebase_ok (fits_shift inRange fewNodes fewBatches)
  refine ⟨link, moved, target, areMoved, ?_⟩
  simp only [append, pushed, rebased]
  rfl

theorem merges_append {moved : List Node}
    (areMoved : List.Forall₂ (Node.Moved a.nodes.size a.batches.size) other.nodes.toList moved)
    (nodes : merged.nodes = a.nodes ++ moved.toArray)
    (batches : merged.batches = a.batches ++ other.batches) : a.Merges other merged := by
  constructor
  · rw [nodes, Array.size_append]
    exact congrArg (a.nodes.size + ·) areMoved.length_eq.symm
  · rw [batches, Array.size_append]
  · intro i bound
    rw [nodes, Array.getElem?_append_left bound]
  · intro i bound
    rw [batches, Array.getElem?_append_left bound]
  · intro i node there
    rw [← Array.getElem?_toList] at there
    obtain ⟨bound, same⟩ := List.getElem?_eq_some_iff.1 there
    have boundMoved : i < moved.length := areMoved.length_eq ▸ bound
    refine ⟨moved[i], ?_, ?_⟩
    · rw [nodes, Array.getElem?_append_right (Nat.le_add_left _ _), Nat.add_sub_cancel,
        List.getElem?_toArray, List.getElem?_eq_getElem boundMoved]
    · rw [← same]
      exact areMoved.get bound boundMoved
  · intro i
    rw [batches, Array.getElem?_append_right (Nat.le_add_left _ _), Nat.add_sub_cancel]

theorem append_ok {root : Link} (linked : other.Linked)
    (inRange : root.target.InRange other.nodes.size other.batches.size)
    (fewNodes : a.nodes.size + other.nodes.size ≤ maxIndex + 1)
    (fewBatches : a.batches.size + other.batches.size ≤ maxIndex + 1) :
    ∃ link merged, a.append other root = .ok (link, merged) ∧
      link.target = root.target.shift a.nodes.size a.batches.size ∧ a.Merges other merged ∧
        merged.statistics = a.statistics.merge other.statistics := by
  obtain ⟨link, moved, target, areMoved, appended⟩ := append_eq linked inRange fewNodes fewBatches
  exact ⟨link, _, appended, target, merges_append areMoved rfl rfl, rfl⟩

theorem Merges.unfolds (merges : a.Merges other merged) {target : Target} {s : Subtree}
    (unfolds : Unfolds other.nodes other.batches target s) :
    Unfolds merged.nodes merged.batches (target.shift a.nodes.size a.batches.size)
      (s.shift a.nodes.size a.batches.size) := by
  induction unfolds with
  | missing => exact .missing
  | leaf inside =>
      apply Unfolds.leaf
      rw [← inside, BatchRange.toList, Nat.add_comm, ← List.map_add_range', List.map_map]
      apply List.map_congr_left
      intro i _
      rw [Function.comp, Nat.add_comm]
      exact merges.movesBatches i
  | inner there _ _ ihLeft ihRight =>
      obtain ⟨moved, found, isMoved⟩ := merges.movesNodes _ _ there
      rw [← isMoved.leftTarget] at ihLeft
      rw [← isMoved.rightTarget] at ihRight
      rw [Target.shift, Subtree.shift, ← isMoved.leftBox, ← isMoved.rightBox]
      exact .inner found ihLeft ihRight

end Arena

theorem Unfolds.inRange {nodes : Array Node} {batches : Array Batch} {link : Link} {s : Subtree}
    (unfolds : Unfolds nodes batches link.target s) : link.target.InRange nodes.size batches.size := by
  cases refers : link.target with
  | missing => exact True.intro
  | inner index =>
      rw [refers] at unfolds
      cases unfolds with
      | inner there => exact (Array.getElem?_eq_some_iff.1 there).1
  | leaf range =>
      have positive := (Link.leaf_bound refers).1
      rw [refers] at unfolds
      cases unfolds with
      | leaf inside =>
          have stop := BatchRange.stop_le_of_map positive inside
          unfold BatchRange.stop at stop
          simp only [Target.InRange]
          omega

theorem Unfolds.linked {nodes : Array Node} {batches : Array Batch} {target : Target} {s : Subtree}
    (unfolds : Unfolds nodes batches target s) :
    ∀ i ∈ s.nodes, ∀ node, nodes[i]? = some node →
      node.left.link.target.InRange nodes.size batches.size ∧
        node.right.link.target.InRange nodes.size batches.size := by
  induction unfolds with
  | missing => exact nofun
  | leaf inside => exact nofun
  | inner there unfoldsLeft unfoldsRight ihLeft ihRight =>
      simp only [Subtree.nodes, List.mem_cons, List.mem_append]
      rintro i (rfl | inLeft | inRight) node found
      · rw [there] at found
        obtain rfl := Option.some.inj found
        exact ⟨unfoldsLeft.inRange, unfoldsRight.inRange⟩
      · exact ihLeft i inLeft node found
      · exact ihRight i inRight node found

namespace Arena

variable {a empty part merged : Arena} {root : Link} {below : Subtree}

theorem linked_of_adds (adds : empty.Adds part root.target below) (noNodes : empty.nodes = #[]) :
    part.Linked := by
  intro node member
  obtain ⟨i, bound, rfl⟩ := List.mem_iff_getElem.1 member
  apply adds.unfolds.linked i
  · have count := adds.nodeCount
    rw [adds.nodes, noNodes, Array.size_empty, List.mem_range'_1]
    rw [noNodes, Array.size_empty] at count
    rw [Array.length_toList] at bound
    omega
  · rw [← Array.getElem?_toList, List.getElem?_eq_getElem bound]

theorem adds_of_merges (adds : empty.Adds part root.target below) (noNodes : empty.nodes = #[])
    (noBatches : empty.batches = #[]) (merges : a.Merges part merged) :
    a.Adds merged (root.target.shift a.nodes.size a.batches.size)
      (below.shift a.nodes.size a.batches.size) := by
  have nodes := adds.nodes
  have batches := adds.batches
  have nodeCount := adds.nodeCount
  have batchCount := adds.batchCount
  rw [noNodes, Array.size_empty] at nodes nodeCount
  rw [noBatches, Array.size_empty] at batches batchCount
  rw [Nat.zero_add] at nodeCount batchCount
  have moved (xs : List Nat) (offset : Nat) (inOrder : xs = List.range' 0 xs.length) :
      xs.map (· + offset) = List.range' offset (xs.map (· + offset)).length := by
    simp only [List.length_map]
    nth_rewrite 1 [inOrder]
    simp only [Nat.add_comm _ offset]
    exact List.map_add_range' 0 _ 1
  constructor
  · exact merges.unfolds adds.unfolds
  · rw [Subtree.nodes_shift]
    exact moved _ _ nodes
  · rw [Subtree.batches_shift]
    exact moved _ _ batches
  · rw [merges.nodeCount, nodeCount, Subtree.nodes_shift, List.length_map]
  · rw [merges.batchCount, batchCount, Subtree.batches_shift, List.length_map]
  · exact merges.keepsNodes
  · exact merges.keepsBatches

end Arena

end BoxTree

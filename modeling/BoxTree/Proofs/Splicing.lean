import BoxTree.Proofs.Shape

/-!
# Splicing arenas

Nodes of an arena may be shared, and links may lead back to where they come from. Down to any number of
levels, the same hangs below the moved links of an appended arena as before, and the same below the links of
the arena that it is appended to.
-/

namespace BoxTree

def Target.Stored (a : Arena) : Target → Prop
  | missing => True
  | inner node => node < a.nodes.size
  | leaf range => range.stop ≤ a.batches.size

instance (a : Arena) : (target : Target) → Decidable (target.Stored a)
  | .missing => .isTrue trivial
  | .inner _ => inferInstanceAs (Decidable (_ < _))
  | .leaf _ => inferInstanceAs (Decidable (_ ≤ _))

theorem Target.shift_zero (target : Target) : target.shift 0 0 = target := by
  cases target <;> rfl

namespace Arena

/-- What hangs below a target, down to some levels. What would follow further down is left out, and nothing is
answered where a link leads out of the arrays. -/
def shapeTo (a : Arena) : (levels : Nat) → Target → Option Shape
  | _, .missing => some .missing
  | _, .leaf range =>
    if range.stop ≤ a.batches.size then some (.leaf (range.content a.batches)) else none
  | 0, .inner _ => some .missing
  | levels + 1, .inner index => do
    let node ← a.nodes[index]?
    let left ← a.shapeTo levels node.left.link.target
    let right ← a.shapeTo levels node.right.link.target
    return .inner node.left.box left node.right.box right

def Closed (a : Arena) : Prop :=
  ∀ node ∈ a.nodes.toList, node.left.link.target.Stored a ∧ node.right.link.target.Stored a

instance (a : Arena) : Decidable a.Closed :=
  inferInstanceAs (Decidable (∀ node ∈ a.nodes.toList, _))

variable {a other merged part whole : Arena} {target : Target} {link root : Link}
  {index levels nodes batches : Nat}

theorem shapeTo_missing (a : Arena) (levels : Nat) : a.shapeTo levels .missing = some .missing := by
  cases levels <;> rfl

theorem shapeTo_leaf {range : BatchRange} (stored : range.stop ≤ a.batches.size) (levels : Nat) :
    a.shapeTo levels (.leaf range) = some (.leaf (range.content a.batches)) := by
  cases levels <;> exact if_pos stored

theorem shapeTo_inner {node : Node} {left right : Shape} (there : a.nodes[index]? = some node)
    (shapeLeft : a.shapeTo levels node.left.link.target = some left)
    (shapeRight : a.shapeTo levels node.right.link.target = some right) :
    a.shapeTo (levels + 1) (.inner index) = some (.inner node.left.box left node.right.box right) := by
  rw [shapeTo, there]
  simp only [Option.bind_eq_bind, Option.bind_some, shapeLeft, shapeRight, Option.pure_def]

theorem shapeTo_of_unfolds {below : Subtree} (unfolds : Unfolds a.nodes a.batches link.target below)
    (enough : below.height ≤ levels) : a.shapeTo levels link.target = some below.shape := by
  induction below generalizing link levels with
  | missing =>
      cases refers : link.target <;> rw [refers] at unfolds <;> cases unfolds
      exact shapeTo_missing a levels
  | leaf range content =>
      cases refers : link.target <;> rw [refers] at unfolds <;> cases unfolds
      next inside =>
      have stored := BatchRange.stop_le_of_map (Link.leaf_bound refers).1 inside
      rw [shapeTo_leaf stored, BatchRange.eq_content stored inside, Subtree.shape]
  | inner index leftBox left rightBox right ihLeft ihRight =>
      obtain ⟨node, refers, there, rfl, rfl, unfoldsLeft, unfoldsRight⟩ := unfolds.of_inner
      rw [Subtree.height] at enough
      obtain ⟨levels, rfl⟩ := Nat.exists_eq_add_of_le' ((Nat.le_add_left 1 _).trans enough)
      rw [refers]
      exact shapeTo_inner there (ihLeft unfoldsLeft (by omega)) (ihRight unfoldsRight (by omega))

theorem shapeTo_of_same {target : Target} {below : Subtree}
    (unfolds : Unfolds a.nodes a.batches link.target below) (enough : below.height ≤ levels)
    (same : ∃ shape, a.shapeTo levels link.target = some shape ∧ merged.shapeTo levels target = some shape) :
    merged.shapeTo levels target = some below.shape := by
  obtain ⟨shape, here, there⟩ := same
  rwa [← here, shapeTo_of_unfolds unfolds enough] at there

theorem Closed.node (closed : a.Closed) (stored : index < a.nodes.size) :
    ∃ node, a.nodes[index]? = some node ∧ node.left.link.target.Stored a ∧
      node.right.link.target.Stored a :=
  ⟨a.nodes[index], Array.getElem?_eq_getElem stored, closed _ (Array.getElem_mem_toList stored)⟩

theorem inRange_of_stored (stored : link.target.Stored a) :
    link.target.InRange a.nodes.size a.batches.size := by
  cases refers : link.target with
  | missing => exact True.intro
  | inner node =>
      rw [refers] at stored
      exact stored
  | leaf range =>
      have positive := (Link.leaf_bound refers).1
      rw [refers] at stored
      simp only [Target.Stored, BatchRange.stop] at stored
      simp only [Target.InRange]
      omega

theorem Closed.linked (closed : a.Closed) : a.Linked :=
  fun node member => ⟨inRange_of_stored (closed node member).1, inRange_of_stored (closed node member).2⟩

/-! ## Parts of an arena -/

structure Embeds (part whole : Arena) (nodes batches : Nat) : Prop where
  node : ∀ i node, part.nodes[i]? = some node →
    ∃ moved, whole.nodes[i + nodes]? = some moved ∧ node.Moved nodes batches moved
  batch : ∀ i < part.batches.size, whole.batches[i + batches]? = part.batches[i]?
  room : part.batches.size + batches ≤ whole.batches.size

theorem Merges.embeds_left (merges : a.Merges other merged) : a.Embeds merged 0 0 where
  node i node there := by
    have bound := (Array.getElem?_eq_some_iff.1 there).1
    refine ⟨node, (merges.keepsNodes i bound).trans there, rfl, ?_, rfl, ?_⟩
    · rw [Target.shift_zero]
    · rw [Target.shift_zero]
  batch := merges.keepsBatches
  room := by
    rw [merges.batchCount]
    exact Nat.le_add_right _ _

theorem Merges.embeds_right (merges : a.Merges other merged) :
    other.Embeds merged a.nodes.size a.batches.size where
  node := merges.movesNodes
  batch i _ := merges.movesBatches i
  room := by rw [merges.batchCount, Nat.add_comm]

theorem Embeds.content (embeds : part.Embeds whole nodes batches) {range : BatchRange}
    (stored : range.stop ≤ part.batches.size) :
    (⟨range.first + batches, range.count⟩ : BatchRange).stop ≤ whole.batches.size ∧
      BatchRange.content whole.batches ⟨range.first + batches, range.count⟩ =
        range.content part.batches := by
  have room := embeds.room
  have inside : (⟨range.first + batches, range.count⟩ : BatchRange).stop ≤ whole.batches.size := by
    unfold BatchRange.stop at stored ⊢
    simp only
    omega
  refine ⟨inside, (BatchRange.eq_content inside ?_).symm⟩
  rw [← BatchRange.map_content stored, BatchRange.toList, Nat.add_comm, ← List.map_add_range', List.map_map]
  refine List.map_congr_left fun i member => ?_
  rw [Function.comp, Nat.add_comm]
  exact embeds.batch i ((BatchRange.mem_toList.1 member).2.trans_le stored)

theorem Embeds.shapeTo (embeds : part.Embeds whole nodes batches) (closed : part.Closed)
    (stored : target.Stored part) (levels : Nat) :
    ∃ shape, part.shapeTo levels target = some shape ∧
      whole.shapeTo levels (target.shift nodes batches) = some shape := by
  induction levels generalizing target with
  | zero =>
      cases target with
      | missing => exact ⟨.missing, rfl, rfl⟩
      | inner index => exact ⟨.missing, rfl, rfl⟩
      | leaf range =>
          obtain ⟨inside, same⟩ := embeds.content stored
          exact ⟨_, shapeTo_leaf stored 0, by rw [← same]; exact shapeTo_leaf inside 0⟩
  | succ levels ih =>
      cases target with
      | missing => exact ⟨.missing, rfl, rfl⟩
      | leaf range =>
          obtain ⟨inside, same⟩ := embeds.content stored
          exact ⟨_, shapeTo_leaf stored _, by rw [← same]; exact shapeTo_leaf inside _⟩
      | inner index =>
          obtain ⟨node, there, storedLeft, storedRight⟩ := closed.node stored
          obtain ⟨moved, found, isMoved⟩ := embeds.node index node there
          obtain ⟨left, shapeLeft, movedLeft⟩ := ih storedLeft
          obtain ⟨right, shapeRight, movedRight⟩ := ih storedRight
          rw [← isMoved.leftTarget] at movedLeft
          rw [← isMoved.rightTarget] at movedRight
          have whole := shapeTo_inner found movedLeft movedRight
          rw [isMoved.leftBox, isMoved.rightBox] at whole
          exact ⟨_, shapeTo_inner there shapeLeft shapeRight, whole⟩

/-- What appending with a root link comes to, for the link that is answered. Trees are the same level by level,
however nodes are shared, and finite ones are all there. -/
structure Spliced (a other merged : Arena) (root link : Link) : Prop where
  below : ∀ levels, ∃ shape, other.shapeTo levels root.target = some shape ∧
    merged.shapeTo levels link.target = some shape
  kept : ∀ target : Target, target.Stored a → ∀ levels, ∃ shape, a.shapeTo levels target = some shape ∧
    merged.shapeTo levels target = some shape
  finite : ∀ below levels, Unfolds other.nodes other.batches root.target below → below.height ≤ levels →
    merged.shapeTo levels link.target = some below.shape
  finiteKept : ∀ (old : Link) below levels, old.target.Stored a → Unfolds a.nodes a.batches old.target below →
    below.height ≤ levels → merged.shapeTo levels old.target = some below.shape
  nodes : ∃ moved : List Node, merged.nodes = a.nodes ++ moved.toArray ∧
    List.Forall₂ (Node.Moved a.nodes.size a.batches.size) other.nodes.toList moved
  batches : merged.batches = a.batches ++ other.batches
  missing : root = .missing → link = .missing

/-- Appending changes no tree, neither of the arena that is appended nor of the one that it is appended to. -/
theorem append_spliced (closed : a.Closed) (closedOther : other.Closed) (stored : root.target.Stored other)
    (fewNodes : a.nodes.size + other.nodes.size ≤ maxIndex + 1)
    (fewBatches : a.batches.size + other.batches.size ≤ maxIndex + 1) :
    ∃ link merged, a.append other root = .ok (link, merged) ∧ a.Spliced other merged root link := by
  obtain ⟨link, moved, refers, areMoved, appended⟩ :=
    append_eq closedOther.linked (inRange_of_stored stored) fewNodes fewBatches
  have merges := @merges_append a other
    ⟨a.nodes ++ moved.toArray, a.batches ++ other.batches, a.statistics.merge other.statistics⟩ moved
    areMoved rfl rfl
  have below (levels : Nat) := merges.embeds_right.shapeTo closedOther stored levels
  have kept (target : Target) (storedHere : target.Stored a) (levels : Nat) :=
    merges.embeds_left.shapeTo closed storedHere levels
  rw [← refers] at below
  simp only [Target.shift_zero] at kept
  refine ⟨link, _, appended, ⟨below, kept, ?_, ?_, ⟨moved, rfl, areMoved⟩, rfl, ?_⟩⟩
  · exact fun _ levels unfolds enough => shapeTo_of_same unfolds enough (below levels)
  · exact fun old _ levels storedHere unfolds enough =>
      shapeTo_of_same unfolds enough (kept old.target storedHere levels)
  · rintro rfl
    rw [Link.target_missing] at refers
    exact Link.target_eq_missing.1 refers

def looped : Arena where
  nodes := #[⟨⟨.empty, ⟨1⟩⟩, ⟨.empty, ⟨0⟩⟩⟩]
  batches := #[⟨2, 2, 2, 2⟩]

theorem append_spliced_looped :
    ∃ link merged, looped.append looped ⟨0⟩ = .ok (link, merged) ∧
      ∀ levels, ∃ shape, looped.shapeTo levels (.inner 0) = some shape ∧
        merged.shapeTo levels link.target = some shape ∧ merged.shapeTo levels (.inner 0) = some shape := by
  obtain ⟨link, merged, appended, spliced⟩ :=
    @append_spliced looped looped ⟨0⟩ (by decide) (by decide) (by decide) (by decide) (by decide)
  refine ⟨link, merged, appended, fun levels => ?_⟩
  obtain ⟨shape, here, there⟩ := spliced.below levels
  obtain ⟨same, before, after⟩ := spliced.kept (.inner 0) (by decide) levels
  have refers : (⟨0⟩ : Link).target = .inner 0 := by decide
  rw [refers] at here
  obtain rfl := Option.some.inj (before.symm.trans here)
  exact ⟨same, before, there, after⟩

end Arena
end BoxTree

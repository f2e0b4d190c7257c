import BoxTree.Proofs.Build.Exact
import BoxTree.Proofs.Build.Top

/-!
# Calls of the builds

A build calls itself for both parts of the triangles that it splits. No call has more triangles than
the leaves have room for on the levels that are left, and no call is deeper than the largest depth.
-/

namespace BoxTree

/-- A number of triangles for which there is room at some depth. -/
structure Affordable (count depth : Nat) : Prop where
  positive : 1 ≤ count
  shallow : depth ≤ maxDepth
  fits : count ≤ maxLeafTriangles * 2 ^ (maxDepth - depth)

theorem affordable_of_storable {count depth levels : Nat} (deeper : depth + levels = maxDepth)
    (storable : Storable count levels) : Affordable count depth where
  positive := storable.positive
  shallow := by omega
  fits := by
    have left : maxDepth - depth = levels := by omega
    rw [left]
    exact storable.fits

/-! ## Exact builds -/

namespace Exact

variable {n : Nat} {s : Settings} {depth levels : Nat} {span left right : Span} {bounds : Box}

inductive Called (p : Primitives n) (s : Settings) :
    (depth levels : Nat) → Span → Box → Progress n → Prop
  | start : Called p s 0 maxDepth ⟨0, n⟩ p.bounds (.start p)
  | left {depth levels : Nat} {span left right : Span} {bounds : Box} {before planned : Progress n}
      (called : Called p s depth (levels + 1) span bounds before)
      (made : plan p s span bounds (maxDepth - (levels + 1)) before = .ok (.split left right, planned)) :
      Called p s (depth + 1) levels left (p.boundsOf (planned.orderings.slice .x left))
        (reserve planned)
  | right {depth levels : Nat} {span left right : Span} {bounds : Box}
      {before planned after : Progress n} {link : Link}
      (called : Called p s depth (levels + 1) span bounds before)
      (made : plan p s span bounds (maxDepth - (levels + 1)) before = .ok (.split left right, planned))
      (built : build p s levels left (p.boundsOf (planned.orderings.slice .x left)) (reserve planned) =
        .ok (link, after)) :
      Called p s (depth + 1) levels right (p.boundsOf (planned.orderings.slice .x right)) after

theorem planned_of_plan {p : Primitives n} {state planned : Progress n} {step : Step} (valid : s.Valid)
    (ready : Ready state span (levels + 1))
    (made : plan p s span bounds (maxDepth - (levels + 1)) state = .ok (step, planned)) :
    planned.arena.nodes = state.arena.nodes ∧ planned.arena.batches = state.arena.batches ∧
      Planned span levels state planned step := by
  obtain ⟨step', planned', made', kept⟩ := @plan_ok n s span levels p state valid ready bounds
  obtain ⟨rfl, rfl⟩ := Prod.mk.inj (Except.ok.inj (made'.symm.trans made))
  exact kept

variable {source : TriangleSource} {before : Progress source.count}

theorem called_ready (valid : s.Valid) (some : 1 ≤ source.count) (few : source.count ≤ maxTriangles)
    (called : Called (Primitives.ofSource source) s depth levels span bounds before) :
    depth + levels = maxDepth ∧ Ready before span levels := by
  induction called with
  | start => exact ⟨Nat.zero_add maxDepth, ready_start some few⟩
  | left _ made ih =>
      obtain ⟨deeper, ready⟩ := ih
      obtain ⟨nodes, batches, splits⟩ := planned_of_plan valid ready made
      exact ⟨by omega, ready_left splits nodes batches ready⟩
  | right _ made built ih =>
      obtain ⟨deeper, ready⟩ := ih
      obtain ⟨nodes, batches, splits⟩ := planned_of_plan valid ready made
      obtain ⟨link, after, below, builtLeft, isBuilt⟩ :=
        build_ok valid (ready_left splits nodes batches ready) _
      obtain ⟨_, rfl⟩ := Prod.mk.inj (Except.ok.inj (builtLeft.symm.trans built))
      exact ⟨by omega, ready_right splits nodes batches ready isBuilt⟩

end Exact

/-! ## Binned builds -/

namespace Binned

variable {n : Nat} {s : Settings} {depth levels : Nat}

inductive CalledTop (select : Selection n) (p : Primitives n) (s : Settings) :
    (depth levels : Nat) → List (Fin n) → Box → Top n → Prop
  | start : CalledTop select p s 0 maxDepth (List.finRange n) p.bounds {}
  | left {depth levels : Nat} {triangles left right : List (Fin n)} {bounds : Box} {before : Top n}
      {statistics : BuildStatistics}
      (called : CalledTop select p s depth (levels + 1) triangles bounds before)
      (large : ¬triangles.length < s.taskThreshold)
      (made : plan select p s triangles bounds (maxDepth - (levels + 1)) before.arena.statistics =
        .ok (.split left right, statistics)) :
      CalledTop select p s (depth + 1) levels left (p.boundsOf left)
        (reserve { before with arena := { before.arena with statistics } })
  | right {depth levels : Nat} {triangles left right : List (Fin n)} {bounds : Box}
      {before after : Top n} {statistics : BuildStatistics} {slot : Slot}
      (called : CalledTop select p s depth (levels + 1) triangles bounds before)
      (large : ¬triangles.length < s.taskThreshold)
      (made : plan select p s triangles bounds (maxDepth - (levels + 1)) before.arena.statistics =
        .ok (.split left right, statistics))
      (built : Top.build select p s levels left (p.boundsOf left)
        (reserve { before with arena := { before.arena with statistics } }) = .ok (slot, after)) :
      CalledTop select p s (depth + 1) levels right (p.boundsOf right) after

/-- A call of the build of a subtree, in some task and at some depth below the first call of all. -/
inductive CalledSubtree (select : Selection n) (p : Primitives n) (s : Settings) :
    (depth levels : Nat) → List (Fin n) → Box → Arena → Prop
  | task {depth levels : Nat} {triangles : List (Fin n)} {bounds : Box} {before : Top n}
      (called : CalledTop select p s depth levels triangles bounds before)
      (small : triangles.length < s.taskThreshold) :
      CalledSubtree select p s depth levels triangles bounds Task.arena
  | left {depth levels : Nat} {triangles left right : List (Fin n)} {bounds : Box} {before : Arena}
      {statistics : BuildStatistics}
      (called : CalledSubtree select p s depth (levels + 1) triangles bounds before)
      (made : plan select p s triangles bounds (maxDepth - (levels + 1)) before.statistics =
        .ok (.split left right, statistics)) :
      CalledSubtree select p s (depth + 1) levels left (p.boundsOf left)
        { before with statistics }.reserve
  | right {depth levels : Nat} {triangles left right : List (Fin n)} {bounds : Box}
      {before after : Arena} {statistics : BuildStatistics} {link : Link}
      (called : CalledSubtree select p s depth (levels + 1) triangles bounds before)
      (made : plan select p s triangles bounds (maxDepth - (levels + 1)) before.statistics =
        .ok (.split left right, statistics))
      (built : buildSubtree select p s levels left (p.boundsOf left) { before with statistics }.reserve =
        .ok (link, after)) :
      CalledSubtree select p s (depth + 1) levels right (p.boundsOf right) after

theorem planned_of_plan {select : Selection n} {p : Primitives n} {triangles : List (Fin n)}
    {bounds : Box} {statistics statistics' : BuildStatistics} {step : Step n} (lawful : select.Lawful)
    (valid : s.Valid) (storable : Storable triangles.length (levels + 1))
    (made : plan select p s triangles bounds (maxDepth - (levels + 1)) statistics =
      .ok (step, statistics')) : Planned triangles levels step := by
  obtain ⟨step', after, made', planned⟩ :=
    @plan_ok n s levels triangles select p lawful valid storable bounds statistics
  obtain ⟨rfl, rfl⟩ := Prod.mk.inj (Except.ok.inj (made'.symm.trans made))
  exact planned

variable {source : TriangleSource} {select : Selection source.count}
  {triangles : List (Fin source.count)} {bounds : Box}

theorem calledTop_ready {before : Top source.count} (lawful : select.Lawful) (valid : s.Valid)
    (some : 1 ≤ source.count) (few : source.count ≤ maxTriangles)
    (called : CalledTop select (Primitives.ofSource source) s depth levels triangles bounds before) :
    depth + levels = maxDepth ∧ Ready before.arena triangles levels := by
  induction called with
  | start => exact ⟨Nat.zero_add maxDepth, ready_start some few⟩
  | left _ _ made ih =>
      obtain ⟨deeper, ready⟩ := ih
      have splits := planned_of_plan lawful valid ready.storable made
      exact ⟨by omega, (ready.of_statistics _).left splits⟩
  | @right depth levels triangles left right bounds before after statistics slot _ _ made built ih =>
      obtain ⟨deeper, ready⟩ := ih
      have splits := planned_of_plan lawful valid ready.storable made
      let planned : Top source.count := { before with arena := { before.arena with statistics } }
      have readyLeft : Ready (reserve planned).arena left levels :=
        (ready.of_statistics statistics).left splits
      obtain ⟨slot, after, sketch, builtLeft, sketched⟩ := build_sketched lawful valid readyLeft
        ((Primitives.ofSource source).boundsOf left)
      obtain ⟨_, rfl⟩ := Prod.mk.inj (Except.ok.inj (builtLeft.symm.trans built))
      exact ⟨by omega, (ready.of_statistics _).right splits sketched.adds sketched.fewNodes
        sketched.fewBatches⟩

theorem calledSubtree_ready {before : Arena} (lawful : select.Lawful) (valid : s.Valid)
    (some : 1 ≤ source.count) (few : source.count ≤ maxTriangles)
    (called : CalledSubtree select (Primitives.ofSource source) s depth levels triangles bounds before) :
    depth + levels = maxDepth ∧ Ready before triangles levels := by
  induction called with
  | task called small =>
      obtain ⟨deeper, ready⟩ := calledTop_ready lawful valid some few called
      exact ⟨deeper, ready.task⟩
  | left _ made ih =>
      obtain ⟨deeper, ready⟩ := ih
      have splits := planned_of_plan lawful valid ready.storable made
      exact ⟨by omega, (ready.of_statistics _).left splits⟩
  | right _ made built ih =>
      obtain ⟨deeper, ready⟩ := ih
      have splits := planned_of_plan lawful valid ready.storable made
      obtain ⟨link, after, below, builtLeft, isBuilt⟩ :=
        buildSubtree_ok lawful valid ((ready.of_statistics _).left splits) _
      obtain ⟨_, rfl⟩ := Prod.mk.inj (Except.ok.inj (builtLeft.symm.trans built))
      exact ⟨by omega, (ready.of_statistics _).right splits isBuilt.adds isBuilt.fewNodes
        isBuilt.fewBatches⟩

end Binned

end BoxTree

import BoxTree.Proofs.Build.Binned
import BoxTree.Proofs.Shape
import BoxTree.Proofs.Statistics

/-!
# What triangles yield

The subtree that is built over some triangles, but for the places of its nodes and batches, and what it
adds to the counters depend on the triangles and the levels that are left, not on what an arena has
when the build of the subtree begins.
-/

namespace BoxTree

namespace Binned

variable {n : Nat} {select : Selection n} {p : Primitives n} {s : Settings} {levels : Nat}
  {triangles : List (Fin n)} {bounds : Box}

/-! ## Planning -/

def Plans (select : Selection n) (p : Primitives n) (s : Settings) (levels : Nat)
    (triangles : List (Fin n)) (bounds : Box) (step : Step n) (medians : Nat) : Prop :=
  ∀ statistics, plan select p s triangles bounds (maxDepth - (levels + 1)) statistics =
    .ok (step, statistics.addMedianSplits medians)

theorem plans_of_ok {step : Step n} {before after : BuildStatistics}
    (made : plan select p s triangles bounds (maxDepth - (levels + 1)) before = .ok (step, after)) :
    ∃ medians, Plans select p s levels triangles bounds step medians := by
  rw [plan_eq] at made
  simp only [Plans, plan_eq]
  cases decided : decision p s triangles bounds (maxDepth - (levels + 1)) with
  | leaf reason =>
      simp only [decided, Except.ok.injEq, Prod.mk.injEq] at made ⊢
      exact ⟨0, fun _ => ⟨made.1, rfl⟩⟩
  | split best =>
      simp only [decided] at made ⊢
      obtain ⟨separated, apart, made⟩ := bind_eq_ok.1 made
      obtain ⟨step', split, made⟩ := bind_eq_ok.1 made
      cases made
      refine ⟨0, fun statistics => ?_⟩
      rw [apart, ok_bind, split]
      rfl
  | median =>
      simp only [decided] at made ⊢
      obtain ⟨separated, apart, made⟩ := bind_eq_ok.1 made
      obtain ⟨step', split, made⟩ := bind_eq_ok.1 made
      cases made
      refine ⟨1, fun statistics => ?_⟩
      rw [apart, ok_bind, split]
      rfl

theorem Plans.unique {step step' : Step n} {medians medians' : Nat}
    (first : Plans select p s levels triangles bounds step medians)
    (second : Plans select p s levels triangles bounds step' medians') :
    step = step' ∧ medians = medians' := by
  have same := (first {}).symm.trans (second {})
  simp only [Except.ok.injEq, Prod.mk.injEq] at same
  have counted := congrArg BuildStatistics.medianSplits same.2
  simp only [BuildStatistics.addMedianSplits, Nat.zero_add] at counted
  exact ⟨same.1, counted⟩

/-! ## Shapes and counters -/

def FitsLeaf (count : Nat) : Prop := 0 < batchesFor count ∧ batchesFor count ≤ maxLeafBatches

/-- The shape of the subtree over some triangles with some levels left below it, and what it adds to
the counters. -/
inductive Yields (select : Selection n) (p : Primitives n) (s : Settings) :
    (levels : Nat) → List (Fin n) → (bounds : Box) → Shape → BuildStatistics → Prop
  | lowest {triangles : List (Fin n)} {bounds : Box} (fits : FitsLeaf triangles.length) :
      Yields select p s 0 triangles bounds (.leaf (Arena.pack (triangles.map Fin.val)))
        (.ofLeaf maxDepth triangles.length (reasonAtLimit s triangles.length))
  | leaf {levels medians : Nat} {triangles : List (Fin n)} {bounds : Box} {reason : LeafReason}
      (planned : Plans select p s levels triangles bounds (.leaf reason) medians)
      (fits : FitsLeaf triangles.length) :
      Yields select p s (levels + 1) triangles bounds (.leaf (Arena.pack (triangles.map Fin.val)))
        ((BuildStatistics.ofLeaf (maxDepth - (levels + 1)) triangles.length reason).addMedianSplits
          medians)
  | inner {levels medians : Nat} {triangles left right : List (Fin n)} {bounds : Box}
      {leftShape rightShape : Shape} {leftCounters rightCounters : BuildStatistics}
      (planned : Plans select p s levels triangles bounds (.split left right) medians)
      (yieldsLeft : Yields select p s levels left (p.boundsOf left) leftShape leftCounters)
      (yieldsRight : Yields select p s levels right (p.boundsOf right) rightShape rightCounters) :
      Yields select p s (levels + 1) triangles bounds
        (.inner (p.boundsOf left) leftShape (p.boundsOf right) rightShape)
        ((leftCounters.merge rightCounters).addMedianSplits medians)

variable {shape shape' : Shape} {counters counters' : BuildStatistics} {before after : Arena}

theorem Yields.unique (first : Yields select p s levels triangles bounds shape counters)
    (second : Yields select p s levels triangles bounds shape' counters') :
    shape = shape' ∧ counters = counters' := by
  induction first generalizing shape' counters' with
  | lowest fits =>
      cases second with
      | lowest fits' => exact ⟨rfl, rfl⟩
  | leaf planned fits =>
      cases second with
      | leaf planned' fits' =>
          obtain ⟨step, medians⟩ := planned.unique planned'
          cases step
          rw [medians]
          exact ⟨rfl, rfl⟩
      | inner planned' _ _ => cases (planned.unique planned').1
  | inner planned _ _ ihLeft ihRight =>
      cases second with
      | leaf planned' fits' => cases (planned.unique planned').1
      | inner planned' yieldsLeft yieldsRight =>
          obtain ⟨step, medians⟩ := planned.unique planned'
          cases step
          obtain ⟨left, countersLeft⟩ := ihLeft yieldsLeft
          obtain ⟨right, countersRight⟩ := ihRight yieldsRight
          rw [left, right, countersLeft, countersRight, medians]
          exact ⟨rfl, rfl⟩

theorem Yields.noTasks (yields : Yields select p s levels triangles bounds shape counters) :
    counters.parallelTasks = 0 := by
  induction yields with
  | lowest fits => exact BuildStatistics.noTasks_ofLeaf _ _ _
  | leaf planned fits => simp only [BuildStatistics.addMedianSplits, BuildStatistics.noTasks_ofLeaf]
  | inner planned _ _ ihLeft ihRight =>
      simp only [BuildStatistics.addMedianSplits, BuildStatistics.merge, ihLeft, ihRight]

/-! ## Growing by shapes -/

end Binned

namespace Arena

def counting (a : Arena) (medians : Nat) : Arena :=
  { a with statistics := a.statistics.addMedianSplits medians }

variable {a a₁ a₂ : Arena} {target : Target} {link leftLink rightLink : Link} {leftBox rightBox : Box}
  {shape leftShape rightShape : Shape} {counters leftCounters rightCounters : BuildStatistics}

theorem Gains.of_counting {medians : Nat} (gains : (a.counting medians).Gains a₁ target shape counters) :
    a.Gains a₁ target shape (counters.addMedianSplits medians) := by
  obtain ⟨⟨below, adds, same⟩, counted⟩ := gains
  refine ⟨⟨below, adds_of_same adds rfl rfl rfl rfl, same⟩, ?_⟩
  rw [counted, BuildStatistics.merge_addMedianSplits]
  rfl

theorem gains_inner (gainsLeft : a.reserve.Gains a₁ leftLink.target leftShape leftCounters)
    (gainsRight : a₁.Gains a₂ rightLink.target rightShape rightCounters)
    (refers : link.target = .inner a.nodes.size) :
    a.Gains (a₂.setNode a.nodes.size ⟨⟨leftBox, leftLink⟩, ⟨rightBox, rightLink⟩⟩) link.target
      (.inner leftBox leftShape rightBox rightShape) (leftCounters.merge rightCounters) := by
  obtain ⟨⟨leftBelow, addsLeft, rfl⟩, countedLeft⟩ := gainsLeft
  obtain ⟨⟨rightBelow, addsRight, rfl⟩, countedRight⟩ := gainsRight
  have kept : a.reserve.statistics = a.statistics := rfl
  rw [refers]
  refine ⟨⟨_, adds_below_node addsLeft addsRight leftBox rightBox, rfl⟩, ?_⟩
  rw [← BuildStatistics.merge_assoc, ← kept, ← countedLeft, ← countedRight]
  rfl

namespace RoomFor

variable (room : a.RoomFor (.inner leftBox leftShape rightBox rightShape))

include room

theorem inside : a.nodes.size ≤ maxIndex := by
  have nodes := room.nodes
  rw [Shape.nodeCount] at nodes
  omega

theorem left : a.reserve.RoomFor leftShape := by
  obtain ⟨nodes, batches⟩ := room
  rw [Shape.nodeCount] at nodes
  rw [Shape.batchCount] at batches
  constructor
  · rw [size_reserve]
    omega
  · simp only [reserve]
    omega

theorem right (fewNodes : a₁.nodes.size ≤ a.reserve.nodes.size + leftShape.nodeCount)
    (fewBatches : a₁.batches.size ≤ a.reserve.batches.size + leftShape.batchCount) :
    a₁.RoomFor rightShape := by
  obtain ⟨nodes, batches⟩ := room
  rw [Shape.nodeCount] at nodes
  rw [Shape.batchCount] at batches
  rw [size_reserve] at fewNodes
  simp only [reserve] at fewBatches
  constructor <;> omega

end RoomFor

theorem roomFor_inner (gains : a.reserve.Gains a₁ target leftShape counters)
    (room : a₁.RoomFor rightShape) : a.RoomFor (.inner leftBox leftShape rightBox rightShape) := by
  obtain ⟨nodes, batches⟩ := room
  obtain ⟨nodeCount, batchCount⟩ := gains.sizes
  rw [size_reserve] at nodeCount
  simp only [reserve] at batchCount
  constructor
  · rw [Shape.nodeCount]
    omega
  · rw [Shape.batchCount]
    omega

end Arena

namespace Binned

variable {n : Nat} {select : Selection n} {p : Primitives n} {s : Settings} {levels : Nat}
  {triangles : List (Fin n)} {bounds : Box} {shape : Shape} {counters : BuildStatistics}
  {before after : Arena}

/-! ## Plain builds -/

theorem fitsLeaf_of_addLeaf {depth : Nat} {reason : LeafReason} {link : Link}
    (inside : before.nodes.size ≤ maxIndex + 1)
    (added : before.addLeaf (triangles.map Fin.val) depth reason = .ok (link, after)) :
    FitsLeaf triangles.length ∧ before.RoomFor (.leaf (Arena.pack (triangles.map Fin.val))) := by
  have stored := mapError_eq_ok.1 added
  simp only [Arena.storeLeaf, List.length_map] at stored
  by_cases unfit : batchesFor triangles.length = 0 ∨ maxLeafBatches < batchesFor triangles.length
  · simp only [if_pos unfit] at stored
    cases stored
  · by_cases full : maxIndex < before.batches.size
    · simp only [if_neg unfit, if_pos full] at stored
      cases stored
    · simp only [if_neg unfit, if_neg full] at stored
      obtain ⟨_, pushed, _⟩ := bind_eq_ok.1 stored
      have room := Arena.room_of_pushBatches (by omega) pushed
      exact ⟨⟨by omega, by omega⟩, inside, room⟩

theorem reserve_of_pushNode {index : Nat} (pushed : before.pushNode .empty = .ok (index, after)) :
    before.nodes.size ≤ maxIndex ∧ after = before.reserve := by
  unfold Arena.pushNode at pushed
  split at pushed
  · cases pushed
    exact ⟨‹_›, rfl⟩
  · cases pushed

theorem addLeaf_adds (fits : FitsLeaf triangles.length)
    (room : before.RoomFor (.leaf (Arena.pack (triangles.map Fin.val)))) (depth : Nat)
    (reason : LeafReason) :
    ∃ link after range, before.addLeaf (triangles.map Fin.val) depth reason = .ok (link, after) ∧
      before.Adds after link.target (.leaf range (Arena.pack (triangles.map Fin.val))) ∧
        after.statistics = before.statistics.merge (.ofLeaf depth triangles.length reason) := by
  have length : (triangles.map Fin.val).length = triangles.length := List.length_map _
  have inside := room.batches
  rw [Shape.batchCount, length_pack] at inside
  rw [← length] at fits
  obtain ⟨link, after, added, adds, counted⟩ := Arena.addLeaf_ok fits.1 fits.2 inside depth reason
  rw [BuildStatistics.recordLeaf_eq, length] at counted
  exact ⟨link, after, _, added, adds, counted⟩

theorem Yields.buildSubtree_ok (yields : Yields select p s levels triangles bounds shape counters)
    (room : before.RoomFor shape) :
    ∃ link after, buildSubtree select p s levels triangles bounds before = .ok (link, after) ∧
      before.Gains after link.target shape counters := by
  induction yields generalizing before with
  | @lowest triangles bounds fits =>
      obtain ⟨link, after, range, added, adds, counted⟩ := addLeaf_adds fits room maxDepth
        (reasonAtLimit s triangles.length)
      exact ⟨link, after, added, ⟨_, adds, rfl⟩, counted⟩
  | @leaf levels medians triangles bounds reason planned fits =>
      obtain ⟨link, after, range, added, adds, counted⟩ :=
        @addLeaf_adds _ _ (before.counting medians) fits ⟨room.nodes, room.batches⟩
          (maxDepth - (levels + 1)) reason
      refine ⟨link, after, ?_, Arena.Gains.of_counting ⟨⟨_, adds, rfl⟩, counted⟩⟩
      rw [buildSubtree, planned]
      exact added
  | @inner levels medians triangles left right bounds leftShape rightShape leftCounters rightCounters
      planned _ _ ihLeft ihRight =>
      let counting : Arena := before.counting medians
      have room : counting.RoomFor _ := ⟨room.nodes, room.batches⟩
      obtain ⟨leftLink, after₁, madeLeft, gainsLeft⟩ := ihLeft room.left
      obtain ⟨nodeCount, batchCount⟩ := gainsLeft.sizes
      obtain ⟨rightLink, after₂, madeRight, gainsRight⟩ :=
        ihRight (room.right nodeCount.le batchCount.le)
      obtain ⟨link, linked, refers⟩ := Link.toInner_ok room.inside
      refine ⟨link, _, ?_, (Arena.gains_inner gainsLeft gainsRight refers).of_counting⟩
      have pushed := Arena.pushNode_ok room.inside .empty
      simp only [counting, Arena.counting, Arena.reserve] at pushed madeLeft linked
      rw [buildSubtree, planned]
      simp only [ok_bind, pushed, madeLeft, madeRight, linked]
      rfl

theorem yields_of_buildSubtree {link : Link} (inside : before.nodes.size ≤ maxIndex + 1)
    (made : buildSubtree select p s levels triangles bounds before = .ok (link, after)) :
    ∃ shape counters, Yields select p s levels triangles bounds shape counters ∧
      before.RoomFor shape := by
  induction levels generalizing triangles bounds before after link with
  | zero =>
      obtain ⟨fits, room⟩ := fitsLeaf_of_addLeaf inside made
      exact ⟨_, _, .lowest fits, room⟩
  | succ levels ih =>
      rw [buildSubtree] at made
      obtain ⟨⟨step, statistics⟩, planned, made⟩ := bind_eq_ok.1 made
      obtain ⟨medians, plans⟩ := plans_of_ok planned
      cases step with
      | leaf reason =>
          obtain ⟨fits, room⟩ := @fitsLeaf_of_addLeaf _ _ { before with statistics } _ _ _ _ inside made
          exact ⟨_, _, .leaf plans fits, room.nodes, room.batches⟩
      | split left right =>
          obtain ⟨⟨index, pushed⟩, push, made⟩ := bind_eq_ok.1 made
          obtain ⟨⟨leftLink, after₁⟩, madeLeft, made⟩ := bind_eq_ok.1 made
          obtain ⟨⟨rightLink, after₂⟩, madeRight, _⟩ := bind_eq_ok.1 made
          let planned : Arena := { before with statistics }
          obtain ⟨fits, rfl⟩ : planned.nodes.size ≤ maxIndex ∧ pushed = planned.reserve :=
            reserve_of_pushNode push
          have reserved : planned.reserve.nodes.size ≤ maxIndex + 1 := by
            rw [Arena.size_reserve]
            exact Nat.succ_le_succ fits
          obtain ⟨leftShape, leftCounters, yieldsLeft, roomLeft⟩ := ih reserved madeLeft
          obtain ⟨leftLink', after₁', again, gains⟩ := yieldsLeft.buildSubtree_ok roomLeft
          cases again.symm.trans madeLeft
          obtain ⟨rightShape, rightCounters, yieldsRight, roomRight⟩ :=
            ih (gains.sizes.1.trans_le roomLeft.nodes) madeRight
          have room := @Arena.roomFor_inner planned _ _ (p.boundsOf left) (p.boundsOf right) _ _ _
            gains roomRight
          exact ⟨_, _, .inner plans yieldsLeft yieldsRight, room.nodes, room.batches⟩

theorem fitsLeaf_of_few (some : 1 ≤ triangles.length) (few : triangles.length ≤ maxLeafTriangles) :
    FitsLeaf triangles.length ∧
      (Arena.pack (triangles.map Fin.val)).length ≤ triangles.length := by
  obtain ⟨positive, less⟩ := batchesFor_bounds some
  rw [length_pack, List.length_map]
  exact ⟨⟨positive, batchesFor_le few⟩, less⟩

theorem yields_of_storable (lawful : select.Lawful) (valid : s.Valid)
    (storable : Storable triangles.length levels) (bounds : Box) :
    ∃ shape counters, Yields select p s levels triangles bounds shape counters ∧
      shape.nodeCount + 1 ≤ triangles.length ∧ shape.batchCount ≤ triangles.length := by
  induction levels generalizing triangles bounds with
  | zero =>
      obtain ⟨fits, batches⟩ := fitsLeaf_of_few storable.positive storable.fits
      exact ⟨_, _, .lowest fits, storable.positive, batches⟩
  | succ levels ih =>
      obtain ⟨step, after, made, planned⟩ := @plan_ok _ _ _ _ select p lawful valid storable bounds {}
      obtain ⟨medians, plans⟩ := plans_of_ok made
      cases step with
      | leaf reason =>
          obtain ⟨fits, batches⟩ := fitsLeaf_of_few storable.positive planned
          exact ⟨_, _, .leaf plans fits, storable.positive, batches⟩
      | split left right =>
          obtain ⟨leftShape, leftCounters, yieldsLeft, nodesLeft, batchesLeft⟩ :=
            ih planned.storableLeft (p.boundsOf left)
          obtain ⟨rightShape, rightCounters, yieldsRight, nodesRight, batchesRight⟩ :=
            ih planned.storableRight (p.boundsOf right)
          have length := planned.length
          refine ⟨_, _, .inner plans yieldsLeft yieldsRight, ?_, ?_⟩
          · rw [Shape.nodeCount]
            omega
          · rw [Shape.batchCount]
            omega

end Binned

end BoxTree

import BoxTree.Build.Exact
import BoxTree.Proofs.Build.Cost
import BoxTree.Proofs.Build.Growth
import BoxTree.Proofs.Build.Orderings
import BoxTree.Proofs.Build.Root

/-!
# Exact builds come to their end

A build that is ready for a span answers a link to a subtree over its triangles, and is ready for both
parts whenever it splits one.
-/

namespace BoxTree.Exact
open Orderings

variable {n : Nat} {s : Settings} {span left right : Span} {levels : Nat}

/-! ## Splits -/

theorem bestSplit?_bounds {p : Primitives n} {cost : CostModel} {o : Orderings n} {bounds : Box}
    {split : Split Axis} (agree : o.Agree span) (found : bestSplit? p cost o span bounds = some split) :
    0 < split.leftCount ∧ split.leftCount < span.length := by
  unfold bestSplit? at found
  obtain ⟨chosen, given, rfl⟩ := Option.map_eq_some_iff.1 found
  rcases CostModel.foldl_cheaper_eq given with absurd | ⟨axis, _, swept⟩
  · cases absurd
  · have separates := CostModel.sweep_spec swept
    have less := separates.less
    rw [List.length_map, length_slice o axis (agree.inside axis)] at less
    exact ⟨separates.positive, less⟩

structure Splits (o o' : Orderings n) (span left right : Span) (levels : Nat) : Prop where
  within : o.Within o' span
  starts : left.start = span.start
  meets : left.stop = right.start
  stops : right.stop = span.stop
  agreeLeft : o'.Agree left
  agreeRight : o'.Agree right
  storableLeft : Storable left.length levels
  storableRight : Storable right.length levels
  triangles : (o'.slice .x left ++ o'.slice .x right).Perm (o.slice .x span)

theorem divide_ok {state : Progress n} {leftCount : Nat} (agree : state.orderings.Agree span)
    (axis : Axis) (inside : leftCount ≤ span.length) (storableLeft : Storable leftCount levels)
    (storableRight : Storable (span.length - leftCount) levels) :
    ∃ left right orderings,
      divide span axis leftCount state = .ok (.split left right, { state with orderings }) ∧
        Splits state.orderings orderings span left right levels := by
  obtain ⟨o, partitioned, within, parts⟩ := partition_ok agree axis inside
  obtain ⟨agreeLeft, agreeRight⟩ := agree_parts agree within inside parts
  refine ⟨(span.cut leftCount).1, (span.cut leftCount).2, o, ?_, within, rfl, rfl, rfl, agreeLeft,
    agreeRight, ?_, ?_, ?_⟩
  · rw [divide, partitioned]
    rfl
  · rwa [Span.length, Span.cut, Nat.add_sub_cancel_left]
  · rwa [Span.length, Span.cut, Nat.sub_add_eq]
  · have whole := (parts .x).left.append (parts .x).right
    rw [List.take_append_drop] at whole
    exact whole.trans (agree.same axis)

/-! ## Steps -/

structure Ready (state : Progress n) (span : Span) (levels : Nat) : Prop where
  storable : Storable span.length levels
  agree : state.orderings.Agree span
  room : state.arena.Room span.length

def Planned (span : Span) (levels : Nat) (before after : Progress n) : Step → Prop
  | .leaf _ => after.orderings = before.orderings ∧ span.length ≤ maxLeafTriangles
  | .split left right => Splits before.orderings after.orderings span left right levels

theorem plan_ok {p : Primitives n} {state : Progress n} (valid : s.Valid)
    (ready : Ready state span (levels + 1)) (bounds : Box) :
    ∃ step after, plan p s span bounds (maxDepth - (levels + 1)) state = .ok (step, after) ∧
      after.arena.nodes = state.arena.nodes ∧ after.arena.batches = state.arena.batches ∧
        Planned span levels state after step := by
  obtain ⟨storable, agree, _⟩ := ready
  have deeper := storable.shallow
  have forced := @forcedLeaf?_bounds s span.length valid (maxDepth - (levels + 1)) (by omega)
  unfold plan decision
  cases looked : forcedLeaf? s span.length (maxDepth - (levels + 1)) with
  | some reason =>
      rw [looked] at forced
      exact ⟨.leaf reason, state, rfl, rfl, rfl, rfl, forced⟩
  | none =>
      rw [looked] at forced
      have parts (split : Split Axis) (found : bestSplit? p (CostModel.ofSettings s) state.orderings span
          bounds = some split) := bestSplit?_bounds agree found
      have chosen := choose_storable (CostModel.ofSettings s) storable forced parts
      simp only
      cases decided : Decision.choose (CostModel.ofSettings s) span.length (maxDepth - (levels + 1))
          (bestSplit? p (CostModel.ofSettings s) state.orderings span bounds) with
      | leaf reason =>
          rw [decided] at chosen
          exact ⟨.leaf reason, state, rfl, rfl, rfl, rfl, chosen⟩
      | split best =>
          rw [decided] at chosen
          obtain ⟨found, storableLeft, storableRight⟩ := chosen
          obtain ⟨left, right, o, divided, splits⟩ :=
            divide_ok agree best.how (parts best found).2.le storableLeft storableRight
          exact ⟨.split left right, _, divided, rfl, rfl, splits⟩
      | median =>
          rw [decided] at chosen
          let counted : Progress n := { state with
            arena := { state.arena with statistics := state.arena.statistics.recordMedianSplit } }
          have agree : counted.orderings.Agree span := agree
          obtain ⟨left, right, o, divided, splits⟩ := divide_ok agree
            (p.centroidBoundsOf (state.orderings.slice .x span)).longestAxis (Nat.div_le_self _ 2)
            chosen.1 chosen.2
          exact ⟨.split left right, _, divided, rfl, rfl, splits⟩

theorem Splits.length {o o' : Orderings n} (splits : Splits o o' span left right levels) :
    left.length + right.length = span.length := by
  have starts := splits.starts
  have meets := splits.meets
  have stops := splits.stops
  have orderedLeft := splits.agreeLeft.ordered
  have orderedRight := splits.agreeRight.ordered
  unfold Span.length
  omega

/-! ## Subtrees -/

variable {source : TriangleSource} {before planned after after' : Progress source.count}
  {link leftLink rightLink : Link} {below leftBelow rightBelow : Subtree}

def trianglesOf (state : Progress n) (span : Span) : List Nat :=
  (state.orderings.slice .x span).map Fin.val

theorem length_trianglesOf {state : Progress n} (agree : state.orderings.Agree span) :
    (trianglesOf state span).length = span.length := by
  rw [trianglesOf, List.length_map, length_slice _ _ (agree.inside .x)]

structure Built (source : TriangleSource) (before after : Progress source.count) (span : Span)
    (levels : Nat) (link : Link) (below : Subtree) : Prop where
  grows : before.arena.Grows source after.arena (trianglesOf before span) levels link below
  within : before.orderings.Within after.orderings span

def reserve (state : Progress n) : Progress n := { state with arena := state.arena.reserve }

theorem makeLeaf_ok (ready : Ready before span levels) (few : span.length ≤ maxLeafTriangles)
    (orderings : planned.orderings = before.orderings) (nodes : planned.arena.nodes = before.arena.nodes)
    (batches : planned.arena.batches = before.arena.batches) (depth : Nat) (reason : LeafReason) :
    ∃ link after below, makeLeaf span depth reason planned = .ok (link, after) ∧
      Built source before after span levels link below := by
  obtain ⟨storable, agree, room⟩ := ready
  have same : trianglesOf planned span = trianglesOf before span := by
    rw [trianglesOf, orderings, trianglesOf]
  have length : (trianglesOf planned span).length = span.length := by
    rw [same]
    exact length_trianglesOf agree
  have nodup : (trianglesOf planned span).Nodup := by
    rw [same]
    exact agree.nodup.map Fin.val_injective
  have room : planned.arena.Room (trianglesOf planned span).length := by
    rw [length]
    exact room.congr nodes batches
  have storable : Storable (trianglesOf planned span).length levels := by
    rw [length]
    exact storable
  obtain ⟨link, arena, range, content, added, adds, holds⟩ :=
    @Arena.grows_leaf _ source _ _ room storable nodup (length.trans_le few) depth reason
  refine ⟨link, { planned with arena }, .leaf range content, ?_, ⟨Arena.adds_of_same adds nodes.symm
    batches.symm rfl rfl, same ▸ holds⟩, ?_⟩
  · rw [trianglesOf] at added
    simp only [makeLeaf, added, ok_bind]
    rfl
  · rw [orderings]
    exact .refl _ _

section

variable (splits : Splits before.orderings planned.orderings span left right levels)
  (nodes : planned.arena.nodes = before.arena.nodes)
  (batches : planned.arena.batches = before.arena.batches)

include splits nodes batches

theorem ready_left (ready : Ready before span (levels + 1)) : Ready (reserve planned) left levels := by
  have room := ready.room.congr nodes batches
  rw [← splits.length] at room
  exact ⟨splits.storableLeft, splits.agreeLeft, room.left splits.storableRight.positive⟩

theorem ready_right (ready : Ready before span (levels + 1))
    (builtLeft : Built source (reserve planned) after left levels leftLink leftBelow) :
    Ready after right levels := by
  have apart : right.stop ≤ left.start ∨ left.stop ≤ right.start := .inr splits.meets.le
  have lengthLeft : (trianglesOf (reserve planned) left).length = left.length :=
    length_trianglesOf splits.agreeLeft
  have room := ready.room.congr nodes batches
  rw [← splits.length, ← lengthLeft] at room
  exact ⟨splits.storableRight, builtLeft.within.agree splits.agreeRight apart,
    room.right_of_grows builtLeft.grows⟩

theorem built_inner (builtLeft : Built source (reserve planned) after left levels leftLink leftBelow)
    (builtRight : Built source after after' right levels rightLink rightBelow)
    (refers : link.target = .inner planned.arena.nodes.size) :
    let p := Primitives.ofSource source
    let leftBox := p.boundsOf (planned.orderings.slice .x left)
    let rightBox := p.boundsOf (planned.orderings.slice .x right)
    let node : Node := ⟨⟨leftBox, leftLink⟩, ⟨rightBox, rightLink⟩⟩
    Built source before { after' with arena := after'.arena.setNode planned.arena.nodes.size node } span
      (levels + 1) link (.inner planned.arena.nodes.size leftBox leftBelow rightBox rightBelow) := by
  intro p leftBox rightBox node
  have apart : right.stop ≤ left.start ∨ left.stop ≤ right.start := .inr splits.meets.le
  have sameRight : trianglesOf after right = (planned.orderings.slice .x right).map Fin.val := by
    rw [trianglesOf, builtLeft.within.slice apart]
    rfl
  have boxLeft : leftBox = source.boundsOf (trianglesOf (reserve planned) left) :=
    Primitives.boundsOf_ofSource _
  have boxRight : rightBox = source.boundsOf (trianglesOf after right) := by
    rw [sameRight]
    exact Primitives.boundsOf_ofSource _
  have parts : (trianglesOf (reserve planned) left ++ trianglesOf after right).Perm
      (trianglesOf before span) := by
    rw [sameRight, trianglesOf, trianglesOf, ← List.map_append]
    exact splits.triangles.map Fin.val
  have starts := splits.starts
  have meets := splits.meets
  have stops := splits.stops
  have orderedLeft := splits.agreeLeft.ordered
  have orderedRight := splits.agreeRight.ordered
  constructor
  · simp only [node, boxLeft, boxRight]
    exact Arena.grows_inner nodes batches builtLeft.grows builtRight.grows parts refers
  · have withinLeft : (reserve planned).orderings.Within after.orderings span :=
      builtLeft.within.mono (by omega) (by omega)
    have withinRight : after.orderings.Within after'.orderings span :=
      builtRight.within.mono (by omega) (by omega)
    exact (splits.within.trans withinLeft).trans withinRight

end

theorem build_ok (valid : s.Valid) (ready : Ready before span levels) (bounds : Box) :
    ∃ link after below,
      build (Primitives.ofSource source) s levels span bounds before = .ok (link, after) ∧
        Built source before after span levels link below := by
  induction levels generalizing span before bounds with
  | zero =>
      have few : span.length ≤ maxLeafTriangles := ready.storable.fits
      exact makeLeaf_ok ready few rfl rfl rfl maxDepth (reasonAtLimit s span.length)
  | succ levels ih =>
      obtain ⟨step, planned, made, nodes, batches, carriedOut⟩ := plan_ok valid ready bounds
      cases step with
      | leaf reason =>
          obtain ⟨orderings, few⟩ := carriedOut
          obtain ⟨link, after, below, built, isBuilt⟩ := makeLeaf_ok ready few orderings nodes batches
            (maxDepth - (levels + 1)) reason
          refine ⟨link, after, below, ?_, isBuilt⟩
          rw [build, made]
          exact built
      | split left right =>
          have readyLeft := ready_left carriedOut nodes batches ready
          obtain ⟨leftLink, after₁, leftBelow, madeLeft, builtLeft⟩ := ih readyLeft
            ((Primitives.ofSource source).boundsOf (planned.orderings.slice .x left))
          -- The left child moved triangles of its own span only, so the right span is as it was.
          have readyRight := ready_right carriedOut nodes batches ready builtLeft
          obtain ⟨rightLink, after₂, rightBelow, madeRight, builtRight⟩ := ih readyRight
            ((Primitives.ofSource source).boundsOf (planned.orderings.slice .x right))
          have room : planned.arena.nodes.size ≤ maxIndex :=
            (ready.room.congr nodes batches).node_le ready.storable.positive
          obtain ⟨link, linked, refers⟩ := Link.toInner_ok room
          refine ⟨link, _, _, ?_, built_inner carriedOut nodes batches builtLeft builtRight refers⟩
          rw [reserve, Arena.reserve] at madeLeft
          rw [build, made]
          simp only [ok_bind, Arena.pushNode_ok room, madeLeft, madeRight, linked]
          rfl

theorem ready_start (some : 1 ≤ source.count) (few : source.count ≤ maxTriangles) :
    Ready (.start (Primitives.ofSource source)) ⟨0, source.count⟩ maxDepth := by
  have limit : source.count ≤ maxIndex + 1 := few.trans (Nat.le_succ maxIndex)
  refine ⟨storable_root some few, (agree_ofCentroids _).1, ?_, ?_⟩
  · exact (Nat.zero_add source.count).trans_le limit
  · exact (Nat.zero_add source.count).trans_le limit

theorem buildAll_ok (valid : s.Valid) (some : 1 ≤ source.count)
    (few : source.count ≤ maxTriangles) :
    ∃ a root, buildAll (Primitives.ofSource source) s = .ok a ∧ a.Finished source root := by
  obtain ⟨link, after, below, built, isBuilt⟩ :=
    build_ok valid (ready_start some few) (Primitives.ofSource source).bounds
  have all : (trianglesOf (.start (Primitives.ofSource source)) ⟨0, source.count⟩).Perm
      (List.range source.count) := by
    rw [← map_val_finRange]
    exact ((agree_ofCentroids _).2 .x).map Fin.val
  obtain ⟨a, root, rooted, finished⟩ :=
    Arena.rooted_of_adds isBuilt.grows.adds rfl rfl (isBuilt.grows.holds.perm all)
  refine ⟨a, root, ?_, finished⟩
  rw [buildAll, built, Primitives.bounds_ofSource]
  exact rooted

end BoxTree.Exact

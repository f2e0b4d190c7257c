import BoxTree.Proofs.Build.Bins
import BoxTree.Proofs.Build.Root
import BoxTree.Proofs.Build.Growth
import BoxTree.Proofs.Build.Orderings

/-!
# Binned builds of subtrees

A node's triangles are divided in place, so both children together have the triangles of the node.
-/

namespace BoxTree.Binned

variable {n : Nat} {s : Settings} {levels : Nat} {triangles : List (Fin n)}

/-- What a selection of smallest keys promises. -/
structure Selection.Lawful (select : Selection n) : Prop where
  perm : ∀ keys middle, middle < keys.length → (select keys middle).Perm keys
  smallest : ∀ keys middle, middle < keys.length →
    ∀ a ∈ (select keys middle).take middle, ∀ b ∈ (select keys middle).drop middle, a.le b = true

theorem Selection.sorted_lawful : (sorted : Selection n).Lawful where
  perm keys _ _ := List.mergeSort_perm keys CentroidKey.le
  smallest keys middle _ a memberA b memberB := by
    have inOrder := List.pairwise_mergeSort CentroidKey.le_trans CentroidKey.le_total keys
    rw [← List.take_append_drop middle (keys.mergeSort CentroidKey.le), List.pairwise_append] at inOrder
    exact inOrder.2.2 a memberA b memberB

/-! ## Steps -/

structure Splits (triangles left right : List (Fin n)) (levels : Nat) : Prop where
  perm : (left ++ right).Perm triangles
  storableLeft : Storable left.length levels
  storableRight : Storable right.length levels

def Planned (triangles : List (Fin n)) (levels : Nat) : Step n → Prop
  | .leaf _ => triangles.length ≤ maxLeafTriangles
  | .split left right => Splits triangles left right levels

structure Cuts (triangles left right : List (Fin n)) (count : Nat) : Prop where
  perm : (left ++ right).Perm triangles
  left : left.length = count
  right : right.length = triangles.length - count

theorem ofSeparated_ok {count : Nat} {moved : List (Fin n)} (perm : moved.Perm triangles)
    (inside : count ≤ triangles.length) :
    Step.ofSeparated (count, moved) = .ok (.split (moved.take count) (moved.drop count)) ∧
      Cuts triangles (moved.take count) (moved.drop count) count := by
  have fits : count ≤ moved.length := inside.trans_eq perm.length_eq.symm
  refine ⟨if_pos fits, ?_, List.length_take_of_le fits, ?_⟩
  · rwa [List.take_append_drop]
  · rw [List.length_drop, perm.length_eq]

theorem splits_of_cuts {left right : List (Fin n)} {count : Nat} (cuts : Cuts triangles left right count)
    (storableLeft : Storable count levels) (storableRight : Storable (triangles.length - count) levels) :
    Splits triangles left right levels where
  perm := cuts.perm
  storableLeft := by rwa [cuts.left]
  storableRight := by rwa [cuts.right]

theorem separateMedian_ok {select : Selection n} (lawful : select.Lawful) (p : Primitives n)
    (several : 2 ≤ triangles.length) :
    ∃ moved, separateMedian select p triangles = .ok (triangles.length / 2, moved) ∧
      moved.Perm triangles ∧
        ∀ i ∈ moved.take (triangles.length / 2), ∀ j ∈ moved.drop (triangles.length / 2),
          (CentroidKey.of p.centroids (p.centroidBoundsOf triangles).longestAxis i).le
            (CentroidKey.of p.centroids (p.centroidBoundsOf triangles).longestAxis j) = true := by
  have middle : triangles.length / 2 < triangles.length := by omega
  let keys := triangles.map (CentroidKey.of p.centroids (p.centroidBoundsOf triangles).longestAxis)
  have inside : triangles.length / 2 < keys.length := by rwa [List.length_map]
  have selected := lawful.perm keys (triangles.length / 2) inside
  have isKey : ∀ key ∈ select keys (triangles.length / 2),
      CentroidKey.of p.centroids (p.centroidBoundsOf triangles).longestAxis key.triangle = key := by
    intro key member
    obtain ⟨i, _, rfl⟩ := List.mem_map.1 (selected.mem_iff.1 member)
    rfl
  refine ⟨(select keys (triangles.length / 2)).map (·.triangle), by
    rw [separateMedian]; exact if_pos middle, ?_, ?_⟩
  · have perm := selected.map (·.triangle)
    rw [List.map_map] at perm
    exact perm.trans (.of_eq (List.map_id' _))
  · rw [← List.map_take, ← List.map_drop]
    intro i memberI j memberJ
    obtain ⟨a, memberA, rfl⟩ := List.mem_map.1 memberI
    obtain ⟨b, memberB, rfl⟩ := List.mem_map.1 memberJ
    rw [isKey a (List.mem_of_mem_take memberA), isKey b (List.mem_of_mem_drop memberB)]
    exact lawful.smallest keys _ inside a memberA b memberB

variable {p : Primitives n} {bounds : Box} {depth : Nat}

def decision (p : Primitives n) (s : Settings) (triangles : List (Fin n)) (bounds : Box) (depth : Nat) :
    Decision BinSplit :=
  match forcedLeaf? s triangles.length depth with
  | some reason => .leaf reason
  | none => .choose (CostModel.ofSettings s) triangles.length depth (bestSplit? p s triangles bounds)

theorem decision_eq_split {best : Split BinSplit}
    (decided : decision p s triangles bounds depth = .split best) : bestSplit? p s triangles bounds = some best := by
  unfold decision at decided
  split at decided
  · cases decided
  · exact choose_eq_split decided

theorem several_of_median (valid : s.Valid) (decided : decision p s triangles bounds depth = .median) :
    2 ≤ triangles.length := by
  unfold decision at decided
  split at decided
  · cases decided
  · next free => exact several_of_forcedLeaf? valid free

theorem decision_storable (valid : s.Valid) (storable : Storable triangles.length (levels + 1))
    (bounds : Box) :
    match decision p s triangles bounds (maxDepth - (levels + 1)) with
    | .leaf _ => triangles.length ≤ maxLeafTriangles
    | .split best => Storable best.leftCount levels ∧ Storable (triangles.length - best.leftCount) levels
    | .median => Storable (triangles.length / 2) levels ∧
        Storable (triangles.length - triangles.length / 2) levels := by
  have deeper := storable.shallow
  have forced := @forcedLeaf?_bounds s triangles.length valid (maxDepth - (levels + 1)) (by omega)
  unfold decision
  cases looked : forcedLeaf? s triangles.length (maxDepth - (levels + 1)) with
  | some reason =>
      rw [looked] at forced
      exact forced
  | none =>
      rw [looked] at forced
      have parts (split : Split BinSplit) (found : bestSplit? p s triangles bounds = some split) :=
        bestSplit?_counted valid found
      have chosen := choose_storable (CostModel.ofSettings s) storable forced
        fun split found => ⟨(parts split found).positive, (parts split found).less⟩
      simp only
      cases decided : Decision.choose (CostModel.ofSettings s) triangles.length (maxDepth - (levels + 1))
          (bestSplit? p s triangles bounds) <;> rw [decided] at chosen
      · exact chosen
      · exact chosen.2
      · exact chosen

theorem plan_eq (select : Selection n) (p : Primitives n) (s : Settings) (triangles : List (Fin n))
    (bounds : Box) (depth : Nat) (statistics : BuildStatistics) :
    plan select p s triangles bounds depth statistics =
      match decision p s triangles bounds depth with
      | .leaf reason => .ok (.leaf reason, statistics)
      | .split best => do
        let step ← Step.ofSeparated (← best.how.separate p triangles best.leftCount)
        return (step, statistics)
      | .median => do
        let step ← Step.ofSeparated (← separateMedian select p triangles)
        return (step, statistics.recordMedianSplit) := by
  unfold plan decision
  cases forcedLeaf? s triangles.length depth <;> rfl

theorem plan_decision {select : Selection n} (lawful : select.Lawful) (valid : s.Valid) (p : Primitives n)
    (triangles : List (Fin n)) (bounds : Box) (depth : Nat) (statistics : BuildStatistics) :
    ∃ step after, plan select p s triangles bounds depth statistics = .ok (step, after) ∧
      match decision p s triangles bounds depth with
      | .leaf reason => step = .leaf reason ∧ after = statistics
      | .split best => after = statistics ∧ ∃ left right, step = .split left right ∧
          Cuts triangles left right best.leftCount ∧
          (∀ i ∈ left, best.how.binning.bin (p.centroid i) < best.how.position) ∧
            ∀ j ∈ right, ¬best.how.binning.bin (p.centroid j) < best.how.position
      | .median => after = statistics.recordMedianSplit ∧ ∃ left right, step = .split left right ∧
          Cuts triangles left right (triangles.length / 2) := by
  rw [plan_eq]
  cases decided : decision p s triangles bounds depth with
  | leaf reason => exact ⟨_, _, rfl, rfl, rfl⟩
  | split best =>
      have counted := bestSplit?_counted valid (decision_eq_split decided)
      obtain ⟨moved, separated, perm, lefts, rights⟩ := separate_ok counted
      obtain ⟨made, cuts⟩ := ofSeparated_ok perm counted.less.le
      refine ⟨_, statistics, ?_, rfl, _, _, rfl, cuts, lefts, rights⟩
      simp only [separated, ok_bind, made]
      rfl
  | median =>
      obtain ⟨moved, separated, perm, _⟩ := separateMedian_ok lawful p (several_of_median valid decided)
      obtain ⟨made, cuts⟩ := ofSeparated_ok perm (Nat.div_le_self _ 2)
      refine ⟨_, statistics.recordMedianSplit, ?_, rfl, _, _, rfl, cuts⟩
      simp only [separated, ok_bind, made]
      rfl

theorem plan_ok {select : Selection n} {p : Primitives n} (lawful : select.Lawful) (valid : s.Valid)
    (storable : Storable triangles.length (levels + 1)) (bounds : Box) (statistics : BuildStatistics) :
    ∃ step after,
      plan select p s triangles bounds (maxDepth - (levels + 1)) statistics = .ok (step, after) ∧
        Planned triangles levels step := by
  have stored := @decision_storable n s levels triangles p valid storable bounds
  obtain ⟨step, after, made, carriedOut⟩ :=
    plan_decision lawful valid p triangles bounds (maxDepth - (levels + 1)) statistics
  refine ⟨step, after, made, ?_⟩
  cases decided : decision p s triangles bounds (maxDepth - (levels + 1)) with
  | leaf reason =>
      rw [decided] at stored carriedOut
      rw [carriedOut.1]
      exact stored
  | split best =>
      rw [decided] at stored carriedOut
      obtain ⟨_, left, right, rfl, cuts, _⟩ := carriedOut
      exact splits_of_cuts cuts stored.1 stored.2
  | median =>
      rw [decided] at stored carriedOut
      obtain ⟨_, left, right, rfl, cuts⟩ := carriedOut
      exact splits_of_cuts cuts stored.1 stored.2

/-! ## Subtrees -/

structure Ready (arena : Arena) (triangles : List (Fin n)) (levels : Nat) : Prop where
  storable : Storable triangles.length levels
  nodup : triangles.Nodup
  room : arena.Room triangles.length

theorem Ready.of_statistics {arena : Arena} (ready : Ready arena triangles levels)
    (statistics : BuildStatistics) : Ready { arena with statistics } triangles levels :=
  ⟨ready.storable, ready.nodup, ready.room.congr rfl rfl⟩

theorem Splits.length {left right : List (Fin n)} (splits : Splits triangles left right levels) :
    left.length + right.length = triangles.length := by
  rw [← List.length_append, splits.perm.length_eq]

variable {source : TriangleSource} {before after : Arena}
  {link : Link} {below : Subtree}

def Built (source : TriangleSource) (before after : Arena) (triangles : List (Fin source.count))
    (levels : Nat) (link : Link) (below : Subtree) : Prop :=
  before.Grows source after (triangles.map Fin.val) levels link below

theorem Ready.left {left right : List (Fin n)} (ready : Ready before triangles (levels + 1))
    (splits : Splits triangles left right levels) : Ready before.reserve left levels := by
  have room := ready.room
  rw [← splits.length] at room
  exact ⟨splits.storableLeft, (List.nodup_append.1 (splits.perm.nodup_iff.2 ready.nodup)).1,
    room.left splits.storableRight.positive⟩

theorem Ready.right {left right : List (Fin n)} {target : Target}
    (ready : Ready before triangles (levels + 1)) (splits : Splits triangles left right levels)
    (adds : before.reserve.Adds after target below) (fewNodes : below.nodes.length + 1 ≤ left.length)
    (fewBatches : below.batches.length ≤ left.length) : Ready after right levels := by
  have room := ready.room
  rw [← splits.length] at room
  exact ⟨splits.storableRight, (List.nodup_append.1 (splits.perm.nodup_iff.2 ready.nodup)).2.1,
    room.right adds fewNodes fewBatches⟩

theorem Built.fewNodes {triangles : List (Fin source.count)}
    (built : Built source before after triangles levels link below) :
    below.nodes.length + 1 ≤ triangles.length := by
  have few := built.holds.fewNodes
  rwa [List.length_map] at few

theorem Built.fewBatches {triangles : List (Fin source.count)}
    (built : Built source before after triangles levels link below) :
    below.batches.length ≤ triangles.length := by
  have few := built.holds.fewBatches
  rwa [List.length_map] at few

theorem addLeaf_ok {triangles : List (Fin source.count)} (ready : Ready before triangles levels)
    (few : triangles.length ≤ maxLeafTriangles) (depth : Nat) (reason : LeafReason) :
    ∃ link after range content, before.addLeaf (triangles.map Fin.val) depth reason = .ok (link, after) ∧
      Built source before after triangles levels link (.leaf range content) := by
  obtain ⟨storable, nodup, room⟩ := ready
  have length : (triangles.map Fin.val).length = triangles.length := List.length_map _
  rw [← length] at storable room few
  exact Arena.grows_leaf room storable (nodup.map Fin.val_injective) few depth reason

theorem buildSubtree_ok {select : Selection source.count} (lawful : select.Lawful) (valid : s.Valid)
    {triangles : List (Fin source.count)} (ready : Ready before triangles levels) (bounds : Box) :
    ∃ link after below,
      buildSubtree select (Primitives.ofSource source) s levels triangles bounds before =
        .ok (link, after) ∧ Built source before after triangles levels link below := by
  induction levels generalizing triangles before bounds with
  | zero =>
      have few : triangles.length ≤ maxLeafTriangles := ready.storable.fits
      obtain ⟨link, after, range, content, added, built⟩ := addLeaf_ok ready few maxDepth
        (reasonAtLimit s triangles.length)
      exact ⟨link, after, .leaf range content, added, built⟩
  | succ levels ih =>
      obtain ⟨step, statistics, made, carriedOut⟩ := @plan_ok _ _ _ _ select (Primitives.ofSource source)
        lawful valid ready.storable bounds before.statistics
      let planned : Arena := { before with statistics }
      have ready : Ready planned triangles (levels + 1) := ready.of_statistics statistics
      cases step with
      | leaf reason =>
          obtain ⟨link, after, range, content, added, built⟩ := addLeaf_ok ready carriedOut
            (maxDepth - (levels + 1)) reason
          refine ⟨link, after, .leaf range content, ?_, Arena.adds_of_same built.adds rfl rfl rfl rfl, built.holds⟩
          rw [buildSubtree, made]
          exact added
      | split left right =>
          obtain ⟨leftLink, after₁, leftBelow, madeLeft, builtLeft⟩ := ih (ready.left carriedOut)
            ((Primitives.ofSource source).boundsOf left)
          -- The left child took at most one node and one batch for each of its triangles.
          have readyRight : Ready after₁ right levels :=
            ready.right carriedOut builtLeft.adds builtLeft.fewNodes builtLeft.fewBatches
          obtain ⟨rightLink, after₂, rightBelow, madeRight, builtRight⟩ := ih readyRight
            ((Primitives.ofSource source).boundsOf right)
          have room : planned.nodes.size ≤ maxIndex := ready.room.node_le ready.storable.positive
          obtain ⟨link, linked, refers⟩ := Link.toInner_ok room
          have parts : (left.map Fin.val ++ right.map Fin.val).Perm (triangles.map Fin.val) := by
            rw [← List.map_append]
            exact carriedOut.perm.map Fin.val
          have grows := @Arena.grows_inner planned after₁ after₂ before source _ _ _ levels link leftLink
            rightLink leftBelow rightBelow rfl rfl builtLeft builtRight parts refers
          simp only [← Primitives.boundsOf_ofSource] at grows
          refine ⟨link, _, _, ?_, grows⟩
          have pushed := Arena.pushNode_ok room .empty
          simp only [planned, Arena.reserve] at pushed madeLeft linked
          rw [buildSubtree, made]
          simp only [ok_bind, pushed, madeLeft, madeRight, linked]
          rfl

end BoxTree.Binned

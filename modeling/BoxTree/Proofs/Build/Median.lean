import BoxTree.Proofs.Build.Binned
import BoxTree.Proofs.Build.Cuts
import BoxTree.Proofs.Build.Exact
import BoxTree.Proofs.Build.Sweep

/-!
# Splits at the median

An exact build takes the first half of a sorted ordering, and a binned build selects the smallest keys of an
unsorted list. No two triangles have the same key, so both take the same triangles.
-/

namespace BoxTree

variable {n : Nat}

/-! ## The longest axis -/

theorem Box.Alike.longestAxis {a b : Box} (same : a.Alike b) : a.longestAxis = b.longestAxis := by
  have longer (first second : Axis) : a.length first > a.length second ↔ b.length first > b.length second :=
    (same.length second).lt_iff_lt (same.length first)
  simp only [Box.longestAxis, longer]

theorem Primitives.longestAxis_perm (p : Primitives n) {triangles others : List (Fin n)}
    (perm : triangles.Perm others) :
    (p.centroidBoundsOf triangles).longestAxis = (p.centroidBoundsOf others).longestAxis := by
  rw [centroidBoundsOf, centroidBoundsOf, Box.ofPoints_eq, Box.ofPoints_eq]
  exact (Box.alike_unionAll ((perm.map p.centroid).map _)).longestAxis

theorem Primitives.longest_centroids (p : Primitives n) (triangles : List (Fin n)) :
    Axis.Longest (fun along => Scalar.extent (triangles.map fun i => (p.centroids.get i).get along))
      (p.centroidBoundsOf triangles).longestAxis := by
  have length (along : Axis) : (p.centroidBoundsOf triangles).length along =
      Scalar.extent (triangles.map fun i => (p.centroids.get i).get along) := by
    rw [centroidBoundsOf, Box.length_ofPoints, List.map_map]
    rfl
  have longest := (p.centroidBoundsOf triangles).longest_longestAxis
  rwa [funext length] at longest

/-! ## The smallest keys -/

/-- Two ways to split a list in which everything on the left is before everything on the right have the same
things on the left, if there are equally many. -/
theorem perm_of_smallest {α : Type} [DecidableEq α] {before : α → α → Prop} {xs ys xs' ys' : List α}
    (nodup : (xs ++ ys).Nodup) (perm : (xs' ++ ys').Perm (xs ++ ys)) (length : xs'.length = xs.length)
    (first : ∀ a ∈ xs, ∀ b ∈ ys, before a b) (notAfter : ∀ a ∈ xs', ∀ b ∈ ys', ¬before b a) :
    xs'.Perm xs := by
  have nodup' := (List.nodup_append.1 (perm.nodup_iff.2 nodup)).1
  refine (List.subperm_of_subset nodup' ?_).perm_of_length_le length.ge
  intro a memberA
  by_contra missingA
  -- Something else has its place on the left, and that is before it.
  have notAll : ¬xs ⊆ xs' := fun subset => missingA
    ((List.subperm_of_subset (List.nodup_append.1 nodup).1 subset).perm_of_length_le length.le |>.mem_iff.2
      memberA)
  obtain ⟨b, memberB, missingB⟩ : ∃ b ∈ xs, b ∉ xs' := by
    simpa only [List.subset_def, not_forall, exists_prop] using notAll
  have laterA : a ∈ ys :=
    (List.mem_append.1 (perm.mem_iff.1 (List.mem_append_left ys' memberA))).resolve_left missingA
  have laterB : b ∈ ys' :=
    (List.mem_append.1 (perm.mem_iff.2 (List.mem_append_left ys memberB))).resolve_left missingB
  exact notAfter a memberA b laterB (first b memberB a laterA)

/-! ## Both medians -/

open Orderings

variable {p : Primitives n} {o : Orderings n} {spans : List Span} {span : Span} {triangles : List (Fin n)}

theorem take_perm_of_selected {axis : Axis} {middle : Nat} {moved : List (Fin n)}
    (consistent : Consistent p.centroids o spans) (member : span ∈ spans)
    (perm : moved.Perm (o.slice axis span))
    (smallest : ∀ i ∈ moved.take middle, ∀ j ∈ moved.drop middle,
      (CentroidKey.of p.centroids axis i).le (CentroidKey.of p.centroids axis j) = true) :
    (moved.take middle).Perm ((o.slice axis span).take middle) ∧
      (moved.drop middle).Perm ((o.slice axis span).drop middle) := by
  have agree := consistent.agree span member
  have nodup : (o.slice axis span).Nodup := (agree.same axis).nodup_iff.2 agree.nodup
  have sorted := consistent.sorted span member axis
  rw [SortedAlong, ← List.take_append_drop middle (o.slice axis span), List.pairwise_append] at sorted
  have whole : (moved.take middle ++ moved.drop middle).Perm
      ((o.slice axis span).take middle ++ (o.slice axis span).drop middle) := by
    rwa [List.take_append_drop, List.take_append_drop]
  have lefts : (moved.take middle).Perm ((o.slice axis span).take middle) := by
    refine perm_of_smallest (by rwa [List.take_append_drop]) whole ?_ sorted.2.2 ?_
    · rw [List.length_take, List.length_take, perm.length_eq]
    · exact fun i memberI j memberJ => CentroidKey.not_before_of_le (smallest i memberI j memberJ)
  exact ⟨lefts, (List.perm_append_left_iff _).1 ((lefts.append_right _).symm.trans whole)⟩

/-- However a span was reached, and in whatever order its triangles are listed, an exact build and a binned
build put the same triangles on both sides of the median along the longest axis of the centroids. -/
theorem medians_agree {select : Binned.Selection n} (lawful : select.Lawful) {state : Exact.Progress n}
    (reached : Reached p.centroids state.orderings spans) (member : span ∈ spans)
    (several : 2 ≤ span.length) (same : triangles.Perm (state.orderings.slice .x span)) :
    let axis := (p.centroidBoundsOf (state.orderings.slice .x span)).longestAxis
    let middle := span.length / 2
    Axis.Longest (fun along => Scalar.extent (triangles.map fun i => (p.centroids.get i).get along)) axis ∧
    ∃ moved left right orderings,
      Binned.separateMedian select p triangles = .ok (middle, moved) ∧
        Exact.divide span axis middle state = .ok (.split left right, { state with orderings }) ∧
          (moved.take middle).Perm ((state.orderings.slice axis span).take middle) ∧
            ∀ axis', (moved.take middle).Perm (orderings.slice axis' left) ∧
              (moved.drop middle).Perm (orderings.slice axis' right) := by
  intro axis middle
  have consistent := reached.consistent
  have agree := consistent.agree span member
  have count : triangles.length = span.length := by
    rw [same.length_eq, length_slice _ .x (agree.inside .x)]
  obtain ⟨moved, separated, perm, smallest⟩ :=
    @Binned.separateMedian_ok _ triangles _ lawful p (count.symm ▸ several)
  rw [count, p.longestAxis_perm same] at smallest
  rw [count] at separated
  obtain ⟨o', partitioned, _, parts⟩ := partition_ok agree axis (Nat.div_le_self span.length 2)
  have whole : moved.Perm (state.orderings.slice axis span) :=
    (perm.trans same).trans (agree.same axis).symm
  obtain ⟨lefts, rights⟩ := take_perm_of_selected consistent member whole smallest
  have longest := p.longest_centroids triangles
  rw [p.longestAxis_perm same] at longest
  refine ⟨longest, moved, (span.cut middle).1, (span.cut middle).2, o', separated, ?_, lefts, fun axis' => ?_⟩
  · rw [Exact.divide, partitioned]
    rfl
  · exact ⟨lefts.trans (parts axis').left.symm, rights.trans (parts axis').right.symm⟩

def tiedPrimitives : Primitives 3 := ⟨tied.map fun point => ⟨point, point⟩, tied, .empty⟩

theorem medians_agree_tied :
    Axis.Longest (fun along => Scalar.extent ([2, 0, 1].map fun i => (tied.get i).get along)) .y ∧
    ∃ moved left right orderings,
      Binned.separateMedian .sorted tiedPrimitives [2, 0, 1] = .ok (1, moved) ∧
        Exact.divide ⟨0, 3⟩ .y 1 (.start tiedPrimitives) =
          .ok (.split left right, { Exact.Progress.start tiedPrimitives with orderings }) ∧
          (moved.take 1).Perm (orderings.slice .z left) := by
  have all : [2, 0, 1].Perm ((ofCentroids tied).slice .x ⟨0, 3⟩) :=
    (by decide : [2, 0, 1].Perm (List.finRange 3)).trans ((agree_ofCentroids tied).2 .x).symm
  have chosen :
      (tiedPrimitives.centroidBoundsOf ((ofCentroids tied).slice .x ⟨0, 3⟩)).longestAxis = .y := by
    rw [tiedPrimitives.longestAxis_perm all.symm]
    decide +kernel
  obtain ⟨longest, moved, left, right, orderings, separated, divided, _, same⟩ :=
    @medians_agree 3 tiedPrimitives _ ⟨0, 3⟩ _ _ Binned.Selection.sorted_lawful (.start tiedPrimitives)
      .start List.mem_cons_self (by decide) all
  have first : Exact.Progress.orderings (.start tiedPrimitives) = ofCentroids tied := rfl
  rw [first, chosen] at longest divided
  exact ⟨longest, moved, left, right, orderings, separated, divided, (same .z).1⟩

end BoxTree

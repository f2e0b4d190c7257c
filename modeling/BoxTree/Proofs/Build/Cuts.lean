import BoxTree.Proofs.Build.Sorting

/-!
# One cut after another

All triangles begin in one span, and every partition cuts a span in two. However spans, axes and places
are chosen, the orderings have the same triangles in each span, and each one has them sorted along its
own axis.
-/

namespace BoxTree.Orderings

variable {n : Nat}

/-- The orderings after some partitions, and the spans that these have cut the triangles into. -/
inductive Reached (centroids : Vector (Vec3 Float32) n) : Orderings n → List Span → Prop where
  | start : Reached centroids (ofCentroids centroids) [⟨0, n⟩]
  | cut {o o' : Orderings n} {before after : List Span} {span : Span} {axis : Axis} {split : Nat} :
      Reached centroids o (before ++ span :: after) → split ≤ span.length →
      o.partition span axis split = .ok o' →
      Reached centroids o' (before ++ (span.cut split).1 :: (span.cut split).2 :: after)

variable {centroids : Vector (Vec3 Float32) n} {o o' : Orderings n} {span : Span} {axis : Axis}
  {split : Nat} {before after spans : List Span}

/-! ## One cut -/

theorem slice_around (o : Orderings n) (axis : Axis) (ordered : span.start ≤ span.stop) :
    (o.along.get axis).toList = o.slice axis ⟨0, span.start⟩ ++
      (o.slice axis span ++ o.slice axis ⟨span.stop, (o.along.get axis).size⟩) := by
  have last : (o.along.get axis).toList.drop span.stop =
      ((o.along.get axis).toList.drop span.start).drop span.length := by
    rw [List.drop_drop, Span.length, Nat.add_sub_cancel' ordered]
  have rest : o.slice axis ⟨span.stop, (o.along.get axis).size⟩ =
      (o.along.get axis).toList.drop span.stop := by
    rw [slice_eq, List.take_of_length_le]
    rw [List.length_drop, Array.length_toList, Span.length]
  rw [rest, last, slice_eq, slice_eq, List.take_append_drop]
  exact (List.take_append_drop _ _).symm

theorem Within.toList_perm (within : o.Within o' span) (ordered : span.start ≤ span.stop)
    (same : (o'.slice axis span).Perm (o.slice axis span)) :
    (o'.along.get axis).toList.Perm (o.along.get axis).toList := by
  have front : o'.slice axis ⟨0, span.start⟩ = o.slice axis ⟨0, span.start⟩ :=
    within.slice (.inl (Nat.le_refl _)) axis
  have back (stop : Nat) : o'.slice axis ⟨span.stop, stop⟩ = o.slice axis ⟨span.stop, stop⟩ :=
    within.slice (.inr (Nat.le_refl _)) axis
  rw [slice_around o axis ordered, slice_around o' axis ordered, within.size, front, back]
  exact (same.append_right _).append_left _

theorem Parts.perm {lefts rights : List (Fin n)} (parts : o'.Parts axis span split lefts rights)
    (inside : split ≤ span.length) : (o'.slice axis span).Perm (lefts ++ rights) := by
  have both := parts.left.append parts.right
  rwa [slice_cut_left o' axis inside, slice_cut_right, List.take_append_drop] at both

/-! ## All cuts -/

structure Consistent (centroids : Vector (Vec3 Float32) n) (o : Orderings n) (spans : List Span) :
    Prop where
  apart : spans.Pairwise fun first second => first.stop ≤ second.start
  agree : ∀ span ∈ spans, o.Agree span
  sorted : ∀ span ∈ spans, ∀ axis, SortedAlong centroids axis (o.slice axis span)
  all : ∀ axis, (o.along.get axis).toList.Perm (List.finRange n)

theorem consistent_start (centroids : Vector (Vec3 Float32) n) :
    Consistent centroids (ofCentroids centroids) [⟨0, n⟩] where
  apart := List.pairwise_singleton _ _
  agree := List.forall_mem_singleton.2 (agree_ofCentroids centroids).1
  sorted := List.forall_mem_singleton.2 (sorted_ofCentroids centroids)
  all := perm_ofCentroids centroids

theorem apart_cut (inside : split ≤ span.length) (ordered : span.start ≤ span.stop)
    (apart : (before ++ span :: after).Pairwise fun first second => first.stop ≤ second.start) :
    (before ++ (span.cut split).1 :: (span.cut split).2 :: after).Pairwise
      fun first second => first.stop ≤ second.start := by
  unfold Span.length at inside
  simp only [List.pairwise_append, List.pairwise_cons, List.mem_cons, forall_eq_or_imp, Span.cut]
    at apart ⊢
  obtain ⟨first, ⟨next, last⟩, between⟩ := apart
  refine ⟨first, ⟨⟨Nat.le_refl _, fun other member => ?_⟩, next, last⟩, fun other member => ?_⟩
  · exact (by omega : span.start + split ≤ span.stop).trans (next other member)
  · obtain ⟨here, later⟩ := between other member
    exact ⟨here, here.trans (Nat.le_add_right _ _), later⟩

theorem Consistent.cut (consistent : Consistent centroids o (before ++ span :: after))
    (inside : split ≤ span.length) (partitioned : o.partition span axis split = .ok o') :
    Consistent centroids o' (before ++ (span.cut split).1 :: (span.cut split).2 :: after) := by
  have here : span ∈ before ++ span :: after := List.mem_append_right before List.mem_cons_self
  have agree := consistent.agree span here
  obtain ⟨_, again, within, parts⟩ := partition_ok agree axis inside
  cases again.symm.trans partitioned
  obtain ⟨agreeLeft, agreeRight⟩ := agree_parts agree within inside parts
  have thins := partition_thins agree.inside partitioned
  have others (other : Span) (member : other ∈ before ++ after) :
      other.stop ≤ span.start ∨ span.stop ≤ other.start := by
    have apart := consistent.apart
    rw [List.pairwise_append, List.pairwise_cons] at apart
    rcases List.mem_append.1 member with earlier | later
    · exact .inl (apart.2.2 other earlier span List.mem_cons_self)
    · exact .inr (apart.2.1.1 other later)
  have old (other : Span) (member : other ∈ before ++ after) : other ∈ before ++ span :: after := by
    rw [List.mem_append] at member ⊢
    exact member.imp_right (List.mem_cons_of_mem span)
  have cases {p : Span → Prop} (left : p (span.cut split).1) (right : p (span.cut split).2)
      (rest : ∀ other ∈ before ++ after, p other) :
      ∀ other ∈ before ++ (span.cut split).1 :: (span.cut split).2 :: after, p other := by
    rw [List.forall_mem_append] at rest ⊢
    rw [List.forall_mem_cons, List.forall_mem_cons]
    exact ⟨rest.1, left, right, rest.2⟩
  refine ⟨apart_cut inside agree.ordered consistent.apart, ?_, ?_, fun axis' => ?_⟩
  · exact cases agreeLeft agreeRight fun other member =>
      within.agree (consistent.agree other (old other member)) (others other member)
  · refine cases (fun axis' => ?_) (fun axis' => ?_) fun other member axis' => ?_
    · exact (consistent.sorted span here axis').sublist (thins axis').left
    · exact (consistent.sorted span here axis').sublist (thins axis').right
    · rw [within.slice (others other member)]
      exact consistent.sorted other (old other member) axis'
  · have same := (parts axis').perm inside
    rw [List.take_append_drop] at same
    have kept := same.trans ((agree.same axis).trans (agree.same axis').symm)
    exact (within.toList_perm agree.ordered kept).trans (consistent.all axis')

theorem Reached.consistent (reached : Reached centroids o spans) : Consistent centroids o spans := by
  induction reached with
  | start => exact consistent_start centroids
  | cut reached inside partitioned ih => exact ih.cut inside partitioned

/-- A triangle comes before another one along an axis by its centroid, or else by its index. Centroids that are
not numbers come last. -/
def Before (centroids : Vector (Vec3 Float32) n) (axis : Axis) (i j : Fin n) : Prop :=
  let place (k : Fin n) := Scalar.sortKey ((centroids.get k).get axis)
  place i < place j ∨ place i = place j ∧ i < j

theorem sortedAlong_iff {triangles : List (Fin n)} :
    SortedAlong centroids axis triangles ↔ triangles.Pairwise (Before centroids axis) :=
  Iff.rfl

/-- After any cuts the spans have the same triangles in all orderings, each one before the next ones by its
centroid, and every span can be cut anywhere along any axis. The cut takes the first triangles along the axis to
the left in all orderings, and moves nothing outside of the span. -/
theorem reached_cuts (reached : Reached centroids o spans) :
    (∀ span ∈ spans, ∀ axis, (o.slice axis span).length = span.length ∧
      (∀ axis', (o.slice axis span).Perm (o.slice axis' span)) ∧
      (o.slice axis span).Pairwise (Before centroids axis)) ∧
    (∀ axis, (o.along.get axis).toList.Perm (List.finRange n)) ∧
    ∀ span ∈ spans, ∀ axis split, split ≤ span.length →
      ∃ o', o.partition span axis split = .ok o' ∧
        (∀ axis', (o'.slice axis' (span.cut split).1).Perm ((o.slice axis span).take split)) ∧
        ∀ axis' i, i < span.start ∨ span.stop ≤ i →
          (o'.along.get axis')[i]? = (o.along.get axis')[i]? := by
  have consistent := reached.consistent
  refine ⟨fun span member axis => ?_, consistent.all, fun span member axis split inside => ?_⟩
  · have agree := consistent.agree span member
    exact ⟨length_slice o axis (agree.inside axis),
      fun axis' => (agree.same axis).trans (agree.same axis').symm,
      sortedAlong_iff.1 (consistent.sorted span member axis)⟩
  · obtain ⟨o', partitioned, within, parts⟩ := partition_ok (consistent.agree span member) axis inside
    exact ⟨o', partitioned, fun axis' => (parts axis').left, within.outside⟩

def tied : Vector (Vec3 Float32) 3 := #v[⟨1, 0, 2⟩, ⟨1, 2, 0⟩, ⟨0, -0, 0 / 0⟩]

theorem reached_cuts_tied : ∃ o, (ofCentroids tied).partition ⟨0, 3⟩ .x 2 = .ok o ∧
    (o.slice .y ⟨0, 2⟩).Perm (o.slice .z ⟨0, 2⟩) ∧ (o.slice .z ⟨0, 2⟩).Pairwise (Before tied .z) := by
  have whole : Reached tied (ofCentroids tied) ([] ++ ⟨0, 3⟩ :: []) := .start
  obtain ⟨_, _, cuts⟩ := reached_cuts whole
  obtain ⟨o, partitioned, _⟩ := cuts ⟨0, 3⟩ List.mem_cons_self .x 2 (by decide)
  have reached : Reached tied o ([] ++ ⟨0, 2⟩ :: ⟨2, 3⟩ :: []) := whole.cut (by decide) partitioned
  obtain ⟨spans, _⟩ := reached_cuts reached
  obtain ⟨_, same, _⟩ := spans ⟨0, 2⟩ List.mem_cons_self .y
  exact ⟨o, partitioned, same .z, (spans ⟨0, 2⟩ List.mem_cons_self .z).2.2⟩

end BoxTree.Orderings

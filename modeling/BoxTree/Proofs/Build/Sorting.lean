import BoxTree.Proofs.Build.Orderings
import BoxTree.Proofs.Except

/-!
# Sorted orderings

Orderings begin sorted along their axes. A partition leaves the triangles of both parts in their old
order, so the parts are sorted as well.
-/

namespace BoxTree

variable {n : Nat}

def CentroidKey.Before (a b : CentroidKey n) : Prop :=
  a.place < b.place ∨ a.place = b.place ∧ a.triangle < b.triangle

instance (a b : CentroidKey n) : Decidable (a.Before b) :=
  inferInstanceAs (Decidable (_ ∨ _))

theorem CentroidKey.before_of_le {a b : CentroidKey n} (le : a.le b = true)
    (different : a.triangle ≠ b.triangle) : a.Before b := by
  rw [ne_eq, Fin.ext_iff] at different
  simp only [CentroidKey.le, Bool.or_eq_true, decide_eq_true_eq, Bool.and_eq_true, beq_iff_eq,
    Fin.le_def] at le
  unfold Before
  rw [Fin.lt_def]
  omega

theorem CentroidKey.le_of_before {a b : CentroidKey n} (before : a.Before b) : a.le b = true := by
  simp only [CentroidKey.le, Bool.or_eq_true, decide_eq_true_eq, Bool.and_eq_true, beq_iff_eq]
  exact before.imp_right (And.imp_right le_of_lt)

theorem CentroidKey.not_before {a b : CentroidKey n} (before : a.Before b) : ¬b.Before a := by
  unfold Before at *
  omega

theorem CentroidKey.not_before_of_le {a b : CentroidKey n} (le : a.le b = true) : ¬b.Before a := by
  simp only [CentroidKey.le, Bool.or_eq_true, decide_eq_true_eq, Bool.and_eq_true, beq_iff_eq,
    Fin.le_def] at le
  unfold Before
  rw [Fin.lt_def]
  omega

def SortedAlong (centroids : Vector (Vec3 Float32) n) (axis : Axis) (triangles : List (Fin n)) : Prop :=
  triangles.Pairwise fun i j =>
    (CentroidKey.of centroids axis i).Before (CentroidKey.of centroids axis j)

instance (centroids : Vector (Vec3 Float32) n) (axis : Axis) (triangles : List (Fin n)) :
    Decidable (SortedAlong centroids axis triangles) :=
  inferInstanceAs (Decidable (triangles.Pairwise _))

theorem SortedAlong.eq_of_perm {centroids : Vector (Vec3 Float32) n} {axis : Axis}
    {triangles others : List (Fin n)} (sorted : SortedAlong centroids axis triangles)
    (sortedOthers : SortedAlong centroids axis others) (perm : triangles.Perm others) :
    triangles = others :=
  perm.eq_of_pairwise
    (fun _ _ _ _ before after => absurd after (CentroidKey.not_before before))
    sorted sortedOthers

namespace Orderings

variable {o o' o₁ o₂ : Orderings n} {span : Span} {axis : Axis} {split : Nat}
  {centroids : Vector (Vec3 Float32) n}

/-! ## The first order -/

theorem sorted_ofCentroids (centroids : Vector (Vec3 Float32) n) (axis : Axis) :
    SortedAlong centroids axis ((ofCentroids centroids).slice axis ⟨0, n⟩) := by
  let keys := ((List.finRange n).map (CentroidKey.of centroids axis)).mergeSort CentroidKey.le
  have perm : keys.Perm ((List.finRange n).map (CentroidKey.of centroids axis)) :=
    List.mergeSort_perm _ _
  have along : ((ofCentroids centroids).along.get axis).toList = keys.map (·.triangle) := by
    rw [ofCentroids, Vec3.get_ofFn]
  have isKey : ∀ key ∈ keys, CentroidKey.of centroids axis key.triangle = key := by
    intro key member
    obtain ⟨i, _, rfl⟩ := List.mem_map.1 (perm.mem_iff.1 member)
    rfl
  have distinct : (keys.map (·.triangle)).Nodup := by
    have same := perm.map (·.triangle)
    rw [List.map_map] at same
    exact (same.trans (.of_eq (List.map_id' _))).nodup_iff.2 (List.nodup_finRange n)
  have inOrder : keys.Pairwise fun a b => a.Before b :=
    (List.pairwise_mergeSort CentroidKey.le_trans CentroidKey.le_total _).imp₂
      (fun _ _ le different => CentroidKey.before_of_le le different) (List.pairwise_map.1 distinct)
  rw [SortedAlong, slice_eq, List.drop_zero, along]
  refine .sublist (List.take_sublist _ _) (List.pairwise_map.2 (inOrder.imp_of_mem ?_))
  intro a b memberA memberB before
  rwa [isKey a memberA, isKey b memberB]

theorem ofCentroids_of_sorted (sorted : ∀ axis, SortedAlong centroids axis (List.finRange n)) :
    ofCentroids centroids = ⟨.replicate (List.finRange n).toArray, .replicate n false, #[]⟩ := by
  have inOrder (axis : Axis) :
      ((List.finRange n).map (CentroidKey.of centroids axis)).mergeSort CentroidKey.le =
        (List.finRange n).map (CentroidKey.of centroids axis) :=
    List.mergeSort_of_pairwise (List.pairwise_map.2 ((sorted axis).imp CentroidKey.le_of_before))
  have triangles (axis : Axis) :
      (((List.finRange n).map (CentroidKey.of centroids axis)).map (·.triangle)).toArray =
        (List.finRange n).toArray := by
    rw [List.map_map]
    exact congrArg List.toArray (List.map_id _)
  simp only [ofCentroids, inOrder, triangles]
  rfl

/-! ## Parts of partitions -/

structure Thins (o o' : Orderings n) (axis : Axis) (span : Span) (split : Nat) : Prop where
  left : (o'.slice axis (span.cut split).1).Sublist (o.slice axis span)
  right : (o'.slice axis (span.cut split).2).Sublist (o.slice axis span)

theorem Thins.congr (thins : o.Thins o' axis span split)
    (before : o₁.along.get axis = o.along.get axis) (after : o₂.along.get axis = o'.along.get axis) :
    o₁.Thins o₂ axis span split := by
  constructor
  · rw [slice_congr before, slice_congr after]
    exact thins.left
  · rw [slice_congr before, slice_congr after]
    exact thins.right

theorem thins_of_same (same : o'.along.get axis = o.along.get axis) (inside : split ≤ span.length) :
    o.Thins o' axis span split := by
  constructor
  · rw [slice_congr same, slice_cut_left o axis inside]
    exact List.take_sublist _ _
  · rw [slice_congr same, slice_cut_right]
    exact List.drop_sublist _ _

theorem separate_thins (ordered : span.start ≤ span.stop)
    (inside : span.stop ≤ (o.along.get axis).size)
    (separated : o.separate axis span split = .ok o') :
    o.Within o' span ∧ o.Thins o' axis span split ∧
      ∀ axis' ≠ axis, o'.along.get axis' = o.along.get axis' := by
  rw [separate_eq split ordered inside rfl rfl] at separated
  split at separated
  · next counted =>
      obtain rfl := Except.ok.inj separated
      have fits : ((o.slice axis span).filter (o.inLeft.get ·) ++
          (o.slice axis span).filter (not ∘ (o.inLeft.get ·))).length = span.length := by
        rw [← length_slice o axis inside]
        exact (List.filter_append_perm (o.inLeft.get ·) _).length_eq
      have short : split ≤ span.length := by
        rw [← fits, List.length_append]
        omega
      refine ⟨(within_write ordered inside fits).withScratch _, ⟨?_, ?_⟩, fun axis' different =>
        get_write_of_ne different⟩
      · rw [slice_cut_left _ _ short, slice_withScratch, slice_write ordered inside fits,
          List.take_left' counted]
        exact List.filter_sublist
      · rw [slice_cut_right, slice_withScratch, slice_write ordered inside fits,
          List.drop_left' counted]
        exact List.filter_sublist
  · cases separated

theorem foldlM_separate_thins {others : List Axis} (each : others.Nodup)
    (ordered : span.start ≤ span.stop) (inside : ∀ axis, span.stop ≤ (o.along.get axis).size)
    (separated : others.foldlM (fun o other => o.separate other span split) o = .ok o') :
    (∀ axis ∈ others, o.Thins o' axis span split) ∧
      ∀ axis ∉ others, o'.along.get axis = o.along.get axis := by
  induction others generalizing o with
  | nil =>
      obtain rfl := Except.ok.inj separated
      exact ⟨nofun, fun _ _ => rfl⟩
  | cons first rest ih =>
      rw [List.nodup_cons] at each
      rw [List.foldlM_cons, bind_eq_ok] at separated
      obtain ⟨o₁, one, separated⟩ := separated
      obtain ⟨within, thins, keeps⟩ := separate_thins ordered (inside first) one
      obtain ⟨thinsRest, keepsRest⟩ := ih each.2
        (fun axis => (inside axis).trans_eq (within.size axis).symm) separated
      constructor
      · rw [List.forall_mem_cons]
        refine ⟨thins.congr rfl (keepsRest first each.1), fun axis member => ?_⟩
        have different : axis ≠ first := fun same => each.1 (same ▸ member)
        exact (thinsRest axis member).congr (keeps axis different).symm rfl
      · intro axis missing
        rw [List.mem_cons, not_or] at missing
        exact (keepsRest axis missing.2).trans (keeps axis missing.1)

theorem partition_thins (inside : ∀ axis, span.stop ≤ (o.along.get axis).size)
    (partitioned : o.partition span axis split = .ok o') (axis' : Axis) :
    o.Thins o' axis' span split := by
  unfold partition at partitioned
  split at partitioned
  · cases partitioned
  · next accepted =>
      simp only [not_or, not_lt] at accepted
      obtain ⟨short, ordered, _⟩ := accepted
      have each : (Axis.all.filter (· ≠ axis)).Nodup := List.Nodup.filter _ (by decide)
      obtain ⟨thins, keeps⟩ := @foldlM_separate_thins _ (o.mark axis span split) _ _ _ _ each ordered
        inside partitioned
      by_cases chosen : axis' = axis
      · subst chosen
        exact thins_of_same (keeps axis' (by simp)) short
      · exact (thins axis' (List.mem_filter.2 ⟨Axis.mem_all axis', decide_eq_true chosen⟩)).congr rfl rfl

end Orderings

end BoxTree

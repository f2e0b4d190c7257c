import BoxTree.Build.Binned
import BoxTree.Proofs.Build.Cost
import BoxTree.Proofs.Build.Decision

/-!
# Separating triangles by bins

A split between two bins has as many triangles on its left as the bins before it count, and they are
brought to the front of the node's triangles.
-/

namespace BoxTree.Binned

variable {n : Nat}

/-! ## Closing in -/

def Separated (isLeft : Fin n → Bool) (position : Nat) (triangles : Array (Fin n)) : Prop :=
  ∀ i t, triangles[i]? = some t → (isLeft t = true ↔ i < position)

structure OutsideGap (isLeft : Fin n → Bool) (gap left : Nat) (triangles : Array (Fin n)) : Prop where
  inside : left + gap ≤ triangles.size
  before : ∀ i t, triangles[i]? = some t → i < left → isLeft t = true
  after : ∀ i t, triangles[i]? = some t → left + gap ≤ i → isLeft t = false

theorem getElem?_swap_of_ne {triangles : Array (Fin n)} {i j k : Nat} (notFirst : k ≠ i)
    (notSecond : k ≠ j) : (triangles.swapIfInBounds i j)[k]? = triangles[k]? := by
  by_cases bound : k < triangles.size
  · rw [Array.getElem?_eq_getElem bound, Array.getElem?_eq_getElem (by simpa using bound),
      Array.getElem_swapIfInBounds, dif_neg (fun same => notFirst same.1),
      dif_neg (fun same => notSecond same.1)]
  · rw [Array.getElem?_eq_none (by rw [Array.size_swapIfInBounds]; omega),
      Array.getElem?_eq_none (by omega)]

theorem perm_swap (triangles : Array (Fin n)) {i j : Nat} (first : i < triangles.size)
    (second : j < triangles.size) : (triangles.swapIfInBounds i j).toList.Perm triangles.toList := by
  rw [Array.swapIfInBounds_def, dif_pos first, dif_pos second]
  exact (Array.swap_perm first second).toList

theorem OutsideGap.step_left {isLeft : Fin n → Bool} {gap left : Nat} {triangles : Array (Fin n)}
    (outside : OutsideGap isLeft (gap + 1) left triangles) (bound : left < triangles.size)
    (isIn : isLeft triangles[left] = true) : OutsideGap isLeft gap (left + 1) triangles := by
  have inside := outside.inside
  constructor
  · omega
  · intro i t found less
    by_cases same : i = left
    · subst same
      rw [Array.getElem?_eq_getElem bound] at found
      rw [← Option.some.inj found]
      exact isIn
    · exact outside.before i t found (by omega)
  · exact fun i t found late => outside.after i t found (by omega)

theorem OutsideGap.step_right {isLeft : Fin n → Bool} {gap left : Nat} {triangles : Array (Fin n)}
    (outside : OutsideGap isLeft (gap + 1) left triangles) (bound : left < triangles.size)
    (notIn : ¬isLeft triangles[left] = true) :
    OutsideGap isLeft gap left (triangles.swapIfInBounds left (left + gap)) := by
  have inside := outside.inside
  constructor
  · rw [Array.size_swapIfInBounds]
    omega
  · intro i t found less
    rw [getElem?_swap_of_ne (by omega) (by omega)] at found
    exact outside.before i t found less
  · intro i t found late
    by_cases same : i = left + gap
    · subst same
      have last : left + gap < triangles.size := by omega
      rw [Array.getElem?_eq_getElem (by simpa using last),
        Array.getElem_swapIfInBounds_right bound] at found
      rw [← Option.some.inj found]
      exact Bool.eq_false_iff.2 notIn
    · rw [getElem?_swap_of_ne (by omega) same] at found
      exact outside.after i t found (by omega)

theorem closeIn_spec (isLeft : Fin n → Bool) (gap left : Nat) (triangles : Array (Fin n))
    (outside : OutsideGap isLeft gap left triangles) :
    (closeIn isLeft gap left triangles).2.toList.Perm triangles.toList ∧
      (closeIn isLeft gap left triangles).1 ≤ triangles.size ∧
        Separated isLeft (closeIn isLeft gap left triangles).1
          (closeIn isLeft gap left triangles).2 := by
  induction gap generalizing left triangles with
  | zero =>
      refine ⟨.refl _, outside.inside, fun i t there => ⟨fun isIn => ?_, outside.before i t there⟩⟩
      by_contra late
      have notIn := outside.after i t there (by simpa [closeIn] using late)
      rw [isIn] at notIn
      cases notIn
  | succ gap ih =>
      have inside := outside.inside
      have first : left < triangles.size := by omega
      have last : left + gap < triangles.size := by omega
      rw [closeIn, Array.getElem?_eq_getElem first, Option.any_some]
      by_cases isIn : isLeft triangles[left] = true
      · rw [if_pos isIn]
        exact ih _ _ (outside.step_left first isIn)
      · rw [if_neg isIn]
        obtain ⟨perm, few, separated⟩ := ih _ _ (outside.step_right first isIn)
        rw [Array.size_swapIfInBounds] at few
        exact ⟨perm.trans (perm_swap triangles first last), few, separated⟩

theorem countP_of_separated {isLeft : Fin n → Bool} {position : Nat} {triangles : Array (Fin n)}
    (separated : Separated isLeft position triangles) (inside : position ≤ triangles.size) :
    (∀ t ∈ triangles.toList.take position, isLeft t = true) ∧
      (∀ t ∈ triangles.toList.drop position, isLeft t = false) ∧
        triangles.toList.countP isLeft = position := by
  have lefts : ∀ t ∈ triangles.toList.take position, isLeft t = true := by
    intro t member
    obtain ⟨i, bound, rfl⟩ := List.mem_take_iff_getElem.1 member
    exact (separated i _ (by simp)).2 (by omega)
  have rights : ∀ t ∈ triangles.toList.drop position, isLeft t = false := by
    intro t member
    obtain ⟨i, bound, rfl⟩ := List.mem_drop_iff_getElem.1 member
    rw [Bool.eq_false_iff]
    intro isIn
    have less := (separated (position + i) _ (by simp)).1 isIn
    omega
  refine ⟨lefts, rights, ?_⟩
  have none : (triangles.toList.drop position).countP isLeft = 0 := by
    rw [List.countP_eq_zero]
    intro t member
    rw [rights t member]
    decide
  rw [← List.take_append_drop position triangles.toList, List.countP_append,
    List.countP_eq_length.2 lefts, none, List.length_take, Array.length_toList]
  omega

/-! ## Bins -/

open Portion

theorem total_take_modify (bins : List Portion) {bin : Nat} (inside : bin < bins.length) (box : Box)
    (position : Nat) :
    total ((bins.modify bin fun q => q.merge ⟨1, box⟩).take position) =
      total (bins.take position) + if bin < position then 1 else 0 := by
  induction bins generalizing bin position with
  | nil => exact absurd inside (Nat.not_lt_zero bin)
  | cons first rest ih =>
      cases position with
      | zero => rfl
      | succ position =>
          cases bin with
          | zero =>
              rw [List.modify_zero_cons, List.take_succ_cons, List.take_succ_cons, total_cons, total_cons,
                if_pos (Nat.succ_pos position), merge]
              exact Nat.add_right_comm _ _ _
          | succ bin =>
              have inRest : bin < rest.length := Nat.lt_of_succ_lt_succ inside
              rw [List.modify_succ_cons, List.take_succ_cons, List.take_succ_cons, total_cons, total_cons,
                ih inRest position]
              simp only [Nat.succ_lt_succ_iff, Nat.add_assoc]

theorem total_take_replicate_empty (count position : Nat) :
    total ((List.replicate count Portion.empty).take position) = 0 := by
  rw [List.take_replicate]
  simp [total, Portion.empty]

namespace Binning

variable {b : Binning}

theorem bin_lt (some : 1 ≤ b.count) (centroid : Vec3 Float32) : b.bin centroid < b.count :=
  lt_of_le_of_lt (min_le_right _ _) (by omega)

theorem of?_count {axis : Axis} {centroids : Box} {count : Nat}
    (given : of? axis centroids count = some b) : b.count = count := by
  unfold of? at given
  simp only at given
  split at given
  · rw [← Option.some.inj given]
  · cases given

theorem total_take_fill (some : 1 ≤ b.count) (p : Primitives n) (triangles : List (Fin n))
    (position : Nat) :
    total ((b.fill p triangles).toList.take position) =
      triangles.countP fun i => b.bin (p.centroid i) < position := by
  have counted (bins : Array Portion) (size : bins.size = b.count) :
      total ((triangles.foldl (fun bins i =>
          bins.modify (b.bin (p.centroid i)) fun q => q.merge ⟨1, p.box i⟩) bins).toList.take position) =
        total (bins.toList.take position) +
          triangles.countP fun i => b.bin (p.centroid i) < position := by
    induction triangles generalizing bins with
    | nil => rfl
    | cons i rest ih =>
        have inside : b.bin (p.centroid i) < bins.toList.length := by
          rw [Array.length_toList, size]
          exact bin_lt some _
        rw [List.foldl_cons, ih _ (by rw [Array.size_modify, size]), Array.toList_modify,
          total_take_modify _ inside, List.countP_cons]
        simp only [decide_eq_true_eq]
        omega
  rw [fill, counted _ Array.size_replicate, Array.toList_replicate, total_take_replicate_empty,
    Nat.zero_add]

theorem size_fill (b : Binning) (p : Primitives n) (triangles : List (Fin n)) :
    (b.fill p triangles).size = b.count := by
  have kept (bins : Array Portion) : (triangles.foldl (fun bins i =>
      bins.modify (b.bin (p.centroid i)) fun q => q.merge ⟨1, p.box i⟩) bins).size = bins.size := by
    induction triangles generalizing bins with
    | nil => rfl
    | cons i rest ih => rw [List.foldl_cons, ih, Array.size_modify]
  rw [fill, kept, Array.size_replicate]

end Binning

/-! ## Splits -/

structure Counted (p : Primitives n) (triangles : List (Fin n)) (split : Split BinSplit) : Prop where
  left : split.leftCount =
    triangles.countP fun i => split.how.binning.bin (p.centroid i) < split.how.position
  positive : 0 < split.leftCount
  less : split.leftCount < triangles.length

variable {p : Primitives n} {s : Settings} {triangles : List (Fin n)} {bounds : Box}
  {split : Split BinSplit}

theorem splitAlong?_binned {axis : Axis} (found : splitAlong? p s triangles bounds axis = some split) :
    Binning.of? axis (p.centroidBoundsOf triangles) s.binCount = some split.how.binning ∧
      split.leftCount =
        total ((split.how.binning.fill p triangles).toList.take split.how.position) := by
  unfold splitAlong? at found
  simp only [Option.bind_eq_bind, Option.bind_eq_some_iff, Option.pure_def, Option.some.injEq] at found
  obtain ⟨b, given, best, _, rfl⟩ := found
  exact ⟨given, count_mergeAll _⟩

theorem splitAlong?_counted (valid : s.Valid) {axis : Axis}
    (found : splitAlong? p s triangles bounds axis = some split) : Counted p triangles split := by
  unfold splitAlong? at found
  simp only [Option.bind_eq_bind, Option.bind_eq_some_iff, Option.pure_def, Option.some.injEq] at found
  obtain ⟨b, given, best, swept, rfl⟩ := found
  have bins : 1 ≤ b.count := by
    rw [Binning.of?_count given]
    exact Nat.le_of_succ_le valid.binCount.1
  have separates := CostModel.sweep_spec swept
  have left : (mergeAll ((b.fill p triangles).toList.take best.position)).count =
      triangles.countP fun i => b.bin (p.centroid i) < best.position := by
    rw [count_mergeAll, Binning.total_take_fill bins]
  have all : total (b.fill p triangles).toList = triangles.length := by
    have taken := Binning.total_take_fill bins p triangles b.count
    rw [List.take_of_length_le (by rw [Array.length_toList, Binning.size_fill])] at taken
    rw [taken, List.countP_eq_length]
    intro i _
    exact decide_eq_true (Binning.bin_lt bins _)
  have parts := total_append ((b.fill p triangles).toList.take best.position)
    ((b.fill p triangles).toList.drop best.position)
  rw [List.take_append_drop, all, ← count_mergeAll] at parts
  have someLeft := separates.left
  have someRight := separates.right
  rw [← count_mergeAll] at someLeft
  refine ⟨left, ?_, ?_⟩
  · exact Nat.pos_of_ne_zero someLeft
  · simp only
    omega

theorem bestSplit?_along (found : bestSplit? p s triangles bounds = some split) :
    ∃ axis, splitAlong? p s triangles bounds axis = some split := by
  unfold bestSplit? at found
  refine @List.foldlRecOn _ _
    (fun best => ∀ split, best = some split → ∃ axis, splitAlong? p s triangles bounds axis = some split)
    Axis.all _ none ?_ ?_ split found
  · intro split missing
    cases missing
  · intro best before axis _ split chosen
    cases along : splitAlong? p s triangles bounds axis with
    | none =>
        simp only [along] at chosen
        cases best with
        | none => cases chosen
        | some a => exact before split chosen
    | some b =>
        simp only [along] at chosen
        cases best with
        | none =>
            rw [← Option.some.inj chosen]
            exact ⟨axis, along⟩
        | some a =>
            rw [← Option.some.inj chosen]
            split_ifs
            · exact ⟨axis, along⟩
            · exact before a rfl

theorem bestSplit?_counted (valid : s.Valid) (found : bestSplit? p s triangles bounds = some split) :
    Counted p triangles split := by
  obtain ⟨axis, along⟩ := bestSplit?_along found
  exact splitAlong?_counted valid along

/-! ## Separating -/

theorem separate_ok (counted : Counted p triangles split) :
    ∃ moved, split.how.separate p triangles split.leftCount = .ok (split.leftCount, moved) ∧
      moved.Perm triangles ∧
        (∀ i ∈ moved.take split.leftCount,
          split.how.binning.bin (p.centroid i) < split.how.position) ∧
          ∀ i ∈ moved.drop split.leftCount,
            ¬split.how.binning.bin (p.centroid i) < split.how.position := by
  let isLeft (i : Fin n) : Bool := split.how.binning.bin (p.centroid i) < split.how.position
  obtain ⟨perm, inside, separated⟩ := closeIn_spec isLeft triangles.length 0 triangles.toArray (by
    constructor
    · rw [Nat.zero_add, List.size_toArray]
    · exact fun i _ _ less => absurd less (Nat.not_lt_zero i)
    · intro i t there late
      rw [Array.getElem?_eq_none (by rw [List.size_toArray]; omega)] at there
      cases there)
  replace inside := inside.trans_eq perm.length_eq.symm
  obtain ⟨lefts, rights, position⟩ := countP_of_separated separated inside
  rw [perm.countP_eq, ← counted.left] at position
  rw [← position] at lefts rights
  refine ⟨(closeIn isLeft triangles.length 0 triangles.toArray).2.toList, ?_, perm, ?_, ?_⟩
  · simp only [BinSplit.separate]
    exact (if_pos position.symm).trans (by rw [position])
  · exact fun i member => of_decide_eq_true (lefts i member)
  · exact fun i member => of_decide_eq_false (rights i member)

end BoxTree.Binned

import BoxTree.Box
import BoxTree.Proofs.Scalar.Arithmetic

/-!
# Boxes around boxes

The union is associative on all boxes, also on those with corners that are not numbers. The box of a list of
boxes never has such a corner, and lies in the box of any list that has all of its members.
-/

namespace BoxTree
open Scalar

theorem Vec3.ext_get {α : Type} {v w : Vec3 α} (same : ∀ axis, v.get axis = w.get axis) : v = w := by
  obtain ⟨x, y, z⟩ := v
  have sameX : x = w.x := same .x
  have sameY : y = w.y := same .y
  have sameZ : z = w.z := same .z
  rw [sameX, sameY, sameZ]

theorem Vec3.get_replicate {α : Type} (a : α) (axis : Axis) : (Vec3.replicate a).get axis = a := by
  cases axis <;> rfl

theorem Scalar.beq_iff {a b : Float32} :
    (a == b) = true ↔ a.isNaN = false ∧ b.isNaN = false ∧ sortKey a = sortKey b := by
  rw [beq_iff_key]
  refine and_congr_right fun numberA => and_congr_right fun numberB => ?_
  rw [key_eq_sortKey numberA, key_eq_sortKey numberB]
  omega

def Axis.earlier : Axis → List Axis
  | x => []
  | y => [x]
  | z => [x, y]

/-- The axis that remains when the axes are looked at one after the other and only a longer one replaces the one
before: none is longer, and of several longest ones it is the first. A length that is not a number is never
longer and never replaced, so that it matters on the first axis only. -/
structure Axis.Longest (length : Axis → Float32) (axis : Axis) : Prop where
  notShorter : ∀ other, ¬length axis < length other
  first : ∀ other ∈ axis.earlier,
    length other < length axis ∨ other ≠ .x ∧ (length other).isNaN = true

/-- How far apart some values are, which are passed over if they are not numbers. -/
def Scalar.extent (values : List Float32) : Float32 :=
  values.foldl maxNum negativeInfinity - values.foldl minNum infinity

namespace Box

def Numeric (b : Box) : Prop :=
  ∀ axis, (b.lower.get axis).isNaN = false ∧ (b.upper.get axis).isNaN = false

def Around (outer inner : Box) : Prop :=
  ∀ axis, sortKey (outer.lower.get axis) ≤ sortKey (inner.lower.get axis) ∧
    sortKey (inner.upper.get axis) ≤ sortKey (outer.upper.get axis)

/-- Two boxes with equal corners, the zeros of both signs being equal. -/
def Same (a b : Box) : Prop :=
  ∀ axis, (a.lower.get axis == b.lower.get axis) = true ∧
    (a.upper.get axis == b.upper.get axis) = true

theorem numeric_empty : empty.Numeric := by
  intro axis
  simp only [empty, Vec3.get_replicate, isNaN_infinity, isNaN_negativeInfinity, and_self]

theorem numeric_union {a : Box} (numeric : a.Numeric) (b : Box) : (a.union b).Numeric := by
  intro axis
  simp only [union, Vec3.get_zipWith]
  exact ⟨isNaN_minNum _ (numeric axis).1, isNaN_maxNum _ (numeric axis).2⟩

theorem numeric_foldl_union (boxes : List Box) {b : Box} (numeric : b.Numeric) :
    (boxes.foldl union b).Numeric := by
  induction boxes generalizing b with
  | nil => exact numeric
  | cons c boxes ih => exact ih (numeric_union numeric c)

theorem numeric_unionAll (boxes : List Box) : (unionAll boxes).Numeric := by
  rw [unionAll]
  exact numeric_foldl_union boxes numeric_empty

/-! ## The union of several boxes -/

theorem union_assoc (a b c : Box) : (a.union b).union c = a.union (b.union c) := by
  unfold union
  congr 1
  · apply Vec3.ext_get
    intro axis
    simp only [Vec3.get_zipWith]
    exact minNum_assoc _ _ _
  · apply Vec3.ext_get
    intro axis
    simp only [Vec3.get_zipWith]
    exact maxNum_assoc _ _ _

theorem union_empty {a : Box} (numeric : a.Numeric) : a.union empty = a := by
  unfold union
  congr 1
  · apply Vec3.ext_get
    intro axis
    simp only [Vec3.get_zipWith, empty, Vec3.get_replicate]
    exact minNum_infinity (numeric axis).1
  · apply Vec3.ext_get
    intro axis
    simp only [Vec3.get_zipWith, empty, Vec3.get_replicate]
    exact maxNum_negativeInfinity (numeric axis).2

theorem foldl_union (boxes : List Box) {a : Box} (numeric : a.Numeric) :
    boxes.foldl union a = a.union (unionAll boxes) := by
  induction boxes generalizing a with
  | nil => exact (union_empty numeric).symm
  | cons b boxes ih =>
      calc (b :: boxes).foldl union a
          = (a.union b).union (unionAll boxes) := ih (numeric_union numeric b)
        _ = ((a.union empty).union b).union (unionAll boxes) := by rw [union_empty numeric]
        _ = a.union ((empty.union b).union (unionAll boxes)) := by simp only [union_assoc]
        _ = a.union (unionAll (b :: boxes)) := by
            rw [← ih (numeric_union numeric_empty b)]
            rfl

theorem unionAll_append (xs ys : List Box) : unionAll (xs ++ ys) = (unionAll xs).union (unionAll ys) := by
  have rest := foldl_union ys (numeric_unionAll xs)
  rwa [unionAll, List.foldl_append]

theorem empty_union_unionAll (boxes : List Box) : empty.union (unionAll boxes) = unionAll boxes :=
  (foldl_union boxes numeric_empty).symm

theorem get_foldl_union (boxes : List Box) (start : Box) (axis : Axis) :
    (boxes.foldl union start).lower.get axis =
        boxes.foldl (fun acc b => minNum acc (b.lower.get axis)) (start.lower.get axis) ∧
      (boxes.foldl union start).upper.get axis =
        boxes.foldl (fun acc b => maxNum acc (b.upper.get axis)) (start.upper.get axis) := by
  induction boxes generalizing start with
  | nil => exact ⟨rfl, rfl⟩
  | cons b boxes ih =>
      have united := ih (start.union b)
      rwa [union, Vec3.get_zipWith, Vec3.get_zipWith] at united

theorem ofPoints_eq (points : List (Vec3 Float32)) :
    ofPoints points = unionAll (points.map fun point => ⟨point, point⟩) := by
  rw [ofPoints, unionAll, List.foldl_map]
  rfl

/-! ## Boxes of points -/

section
variable {points : List (Vec3 Float32)} {axis : Axis}

theorem get_ofPoints (points : List (Vec3 Float32)) (axis : Axis) :
    (ofPoints points).lower.get axis =
        points.foldl (fun acc p => minNum acc (p.get axis)) infinity ∧
      (ofPoints points).upper.get axis =
        points.foldl (fun acc p => maxNum acc (p.get axis)) negativeInfinity := by
  have boxes := get_foldl_union (points.map fun point => (⟨point, point⟩ : Box)) empty axis
  simp only [empty, Vec3.get_replicate, List.foldl_map] at boxes
  rwa [ofPoints_eq, unionAll, List.foldl_map]

theorem ofPoints_bounds {p : Vec3 Float32} (member : p ∈ points) (number : (p.get axis).isNaN = false) :
    (ofPoints points).lower.get axis ≤ p.get axis ∧ p.get axis ≤ (ofPoints points).upper.get axis := by
  obtain ⟨lower, upper⟩ := get_ofPoints points axis
  rw [lower, upper]
  exact ⟨foldl_minNum_le (f := fun q : Vec3 Float32 => q.get axis) isNaN_infinity member number,
    le_foldl_maxNum (f := fun q : Vec3 Float32 => q.get axis) isNaN_negativeInfinity member number⟩

theorem foldl_eq_start_or_mem {op : Float32 → Float32 → Float32} (picks : ∀ a b, op a b = a ∨ op a b = b)
    (points : List (Vec3 Float32)) (axis : Axis) (a : Float32) :
    points.foldl (fun acc p => op acc (p.get axis)) a = a ∨
      ∃ p ∈ points, points.foldl (fun acc p => op acc (p.get axis)) a = p.get axis := by
  induction points generalizing a with
  | nil => exact .inl rfl
  | cons p points ih =>
      rcases ih (op a (p.get axis)) with start | ⟨q, member, same⟩
      · rw [List.foldl_cons, start]
        exact (picks a (p.get axis)).imp_right fun picked => ⟨p, List.mem_cons_self, picked⟩
      · exact .inr ⟨q, List.mem_cons_of_mem p member, same⟩

theorem ofPoints_reached (points : List (Vec3 Float32)) (axis : Axis) :
    ((ofPoints points).lower.get axis = infinity ∨
      ∃ p ∈ points, (ofPoints points).lower.get axis = p.get axis) ∧
    ((ofPoints points).upper.get axis = negativeInfinity ∨
      ∃ p ∈ points, (ofPoints points).upper.get axis = p.get axis) := by
  obtain ⟨lower, upper⟩ := get_ofPoints points axis
  rw [lower, upper]
  exact ⟨@foldl_eq_start_or_mem minNum (fun _ _ => (ite_eq_or_eq ..).symm) points axis infinity,
    @foldl_eq_start_or_mem maxNum (fun _ _ => (ite_eq_or_eq ..).symm) points axis negativeInfinity⟩

theorem length_ofPoints (points : List (Vec3 Float32)) (axis : Axis) :
    (ofPoints points).length axis = extent (points.map (·.get axis)) := by
  obtain ⟨lower, upper⟩ := get_ofPoints points axis
  rw [length, lower, upper, extent, List.foldl_map, List.foldl_map]

end

theorem longest_longestAxis (b : Box) : Axis.Longest b.length b.longestAxis := by
  simp only [longestAxis, gt_iff_lt]
  split_ifs with longer longest longest
  all_goals
    rw [lt_iff] at longer longest
    constructor
    · grind [lt_iff, cases Axis]
    · grind [lt_iff, Axis.earlier]

/-! ## Containing -/

theorem around_trans {a b c : Box} (first : a.Around b) (second : b.Around c) : a.Around c :=
  fun axis => ⟨(first axis).1.trans (second axis).1, (second axis).2.trans (first axis).2⟩

theorem unionAll_around_of_subset {inner outer : List Box} (subset : inner ⊆ outer) :
    (unionAll outer).Around (unionAll inner) := by
  intro axis
  obtain ⟨numberOuter, numberOuter'⟩ := numeric_unionAll outer axis
  obtain ⟨numberInner, numberInner'⟩ := numeric_unionAll inner axis
  constructor
  · refine (le_iff.1 (le_of_forall_gt numberOuter numberInner fun d less => ?_)).2.2
    rw [unionAll, (get_foldl_union _ _ axis).1, foldl_minNum_lt] at less ⊢
    exact less.imp_right fun ⟨b, member, less⟩ => ⟨b, subset member, less⟩
  · refine (le_iff.1 (le_of_forall_lt numberInner' numberOuter' fun d less => ?_)).2.2
    rw [unionAll, (get_foldl_union _ _ axis).2, lt_foldl_maxNum] at less ⊢
    exact less.imp_right fun ⟨b, member, less⟩ => ⟨b, subset member, less⟩

theorem isEmpty_eq_false {b : Box} :
    b.isEmpty = false ↔ ∀ axis, b.lower.get axis ≤ b.upper.get axis := by
  simp only [isEmpty, List.any_eq_false, Bool.not_eq_true', decide_eq_false_iff_not, not_not, Axis.mem_all,
    true_imp_iff]

theorem contains_iff {outer inner : Box} :
    outer.contains inner = true ↔ inner.isEmpty = true ∨
      ∀ axis, outer.lower.get axis ≤ inner.lower.get axis ∧ inner.upper.get axis ≤ outer.upper.get axis := by
  simp only [contains, Bool.or_eq_true, List.all_eq_true, Bool.and_eq_true, decide_eq_true_eq, Axis.mem_all,
    true_imp_iff]

theorem contains_of_around {outer inner : Box} (numericOuter : outer.Numeric)
    (numericInner : inner.Numeric) (around : outer.Around inner) : outer.contains inner = true := by
  refine contains_iff.2 (.inr fun axis => ?_)
  rw [le_iff, le_iff]
  exact ⟨⟨(numericOuter axis).1, (numericInner axis).1, (around axis).1⟩,
    (numericInner axis).2, (numericOuter axis).2, (around axis).2⟩

theorem contains_unionAll_of_subset {inner outer : List Box} (subset : inner ⊆ outer) :
    (unionAll outer).contains (unionAll inner) = true :=
  contains_of_around (numeric_unionAll outer) (numeric_unionAll inner) (unionAll_around_of_subset subset)

theorem isEmpty_empty : empty.isEmpty = true := by decide +kernel

/-! ## Equal boxes -/

variable {a b : Box}

theorem same_of_around (numericA : a.Numeric) (numericB : b.Numeric) (around : a.Around b)
    (inside : b.Around a) : a.Same b := by
  intro axis
  rw [beq_iff, beq_iff]
  exact ⟨⟨(numericA axis).1, (numericB axis).1, (around axis).1.antisymm (inside axis).1⟩,
    (numericA axis).2, (numericB axis).2, (inside axis).2.antisymm (around axis).2⟩

theorem Same.numeric (same : a.Same b) : a.Numeric :=
  fun axis => ⟨(beq_iff.1 (same axis).1).1, (beq_iff.1 (same axis).2).1⟩

theorem Same.symm (same : a.Same b) : b.Same a := by
  intro axis
  obtain ⟨lower, upper⟩ := same axis
  rw [beq_iff] at lower upper ⊢
  rw [beq_iff]
  exact ⟨⟨lower.2.1, lower.1, lower.2.2.symm⟩, upper.2.1, upper.1, upper.2.2.symm⟩

theorem Same.around (same : a.Same b) : a.Around b :=
  fun axis => ⟨(beq_iff.1 (same axis).1).2.2.le, (beq_iff.1 (same axis).2).2.2.ge⟩

theorem same_unionAll {xs ys : List Box} (subset : xs ⊆ ys) (superset : ys ⊆ xs) :
    (unionAll xs).Same (unionAll ys) :=
  same_of_around (numeric_unionAll xs) (numeric_unionAll ys) (unionAll_around_of_subset superset)
    (unionAll_around_of_subset subset)

end Box

end BoxTree

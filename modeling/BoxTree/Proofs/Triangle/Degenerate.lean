import BoxTree.Proofs.Scalar.Void
import BoxTree.Proofs.Triangle
import BoxTree.Proofs.Triangle.Determinant

/-!
# Triangles without area

A triangle with its corners on one line has a determinant of zero, and should never be hit. But the
determinant is computed with rounding, and only if it comes out as exactly zero is the triangle turned
down. This is certain if the first corner is repeated, for lines along an axis, and for rays along an
axis. Elsewhere rounding may leave a rest, no more than the noise of the determinant but enough for a
ray to hit a triangle that it does not even touch.
-/

namespace BoxTree
open Scalar

theorem Axis.next_ne (axis : Axis) : axis.next ≠ axis ∧ axis.next.next ≠ axis := by
  cases axis <;> decide

namespace Vec3

variable {v w : Vec3 Float32}

theorem void_dot (void : ∀ axis, Void (v.get axis * w.get axis)) : Void (v.dot w) :=
  ((void .x).add (void .y)).add (void .z)

theorem void_dot_of_opposite (axis : Axis) (void : Void (v.get axis * w.get axis))
    (number : (v.get axis.next * w.get axis.next).isNaN = false)
    (number' : (v.get axis.next.next * w.get axis.next.next).isNaN = false)
    (opposite : key (v.get axis.next * w.get axis.next) =
      -key (v.get axis.next.next * w.get axis.next.next)) : Void (v.dot w) := by
  have turned := neg_eq_iff_eq_neg.2 opposite
  cases axis with
  | x => exact (void.add_add (Void.add_opposite number number' opposite)).1
  | y => exact (void.add_add (Void.add_opposite number' number turned.symm)).2.1
  | z => exact (void.add_add (Void.add_opposite number number' opposite)).2.2

theorem value_cross {d e : Vec3 Float32} (axis : Axis)
    (unit : (d.get axis == 1) = true ∨ (d.get axis == -1) = true)
    (flat : ∀ other ≠ axis, (d.get other == 0) = true) (finite : ∀ axis, (e.get axis).isFinite = true) :
    (((d.cross e).get axis.next).isFinite = true ∧ value ((d.cross e).get axis.next) =
        -(value (d.get axis) * value (e.get axis.next.next))) ∧
      ((d.cross e).get axis.next.next).isFinite = true ∧ value ((d.cross e).get axis.next.next) =
        value (d.get axis) * value (e.get axis.next) := by
  have cycle : axis.next.next.next = axis := by cases axis <;> rfl
  have zero (other : Axis) (different : other ≠ axis) (x : Float32) (finiteX : x.isFinite = true) :
      (d.get other * x).isFinite = true ∧ value (d.get other * x) = 0 := by
    obtain ⟨finiteZero, nothing⟩ := value_of_zero (flat other different)
    refine value_of_zero (beq_iff_key.2 ⟨isNaN_mul finiteZero finiteX, rfl, ?_⟩)
    rw [key_mul finiteZero finiteX, nothing, zero_mul, rounded_zero]
    rfl
  obtain ⟨finiteFirst, first⟩ := value_unit_mul unit (finite axis.next.next)
  obtain ⟨finiteSecond, second⟩ := value_unit_mul unit (finite axis.next)
  obtain ⟨finiteZero, nothing⟩ := zero axis.next.next axis.next_ne.2 _ (finite axis)
  obtain ⟨finiteZero', nothing'⟩ := zero axis.next axis.next_ne.1 _ (finite axis)
  rw [get_cross, get_cross, cycle, ← first, ← second]
  constructor
  · obtain ⟨number, place⟩ := sub_finite finiteZero finiteFirst
    rw [nothing, zero_sub] at place
    exact value_of_rounded_neg finiteFirst number place
  · obtain ⟨number, place⟩ := sub_finite finiteSecond finiteZero'
    rw [nothing', sub_zero] at place
    exact value_of_rounded finiteSecond number place

end Vec3

/-! ## Crossings -/

theorem PlaneCrossing.accepted_of_void {origin direction base edge1 edge2 : Vec3 Float32}
    (void : Void (solve origin direction base edge1 edge2).det) :
    (solve origin direction base edge1 edge2).accepted = false := by
  rcases void with zero | nan
  · have turned : ((solve origin direction base edge1 edge2).det != 0) = false := by
      rw [bne, Bool.not_eq_false']
      exact zero
    simp only [accepted, turned, Bool.false_and]
  · have nanU : (solve origin direction base edge1 edge2).u.isNaN = true :=
      isNaN_mul_of_isNaN (Ray.isNaN_div_of_isNaN nan) _
    have outside : ¬0 ≤ (solve origin direction base edge1 edge2).u := by
      rw [le_iff, nanU]
      simp only [Bool.true_eq_false, false_and, and_false, not_false_eq_true]
    simp only [accepted, outside, decide_false, Bool.and_false, Bool.false_and]

namespace Triangle

/-- The corners lie on one line, as the exact points that they are. -/
structure Degenerate (t : Facet) : Prop where
  finite : ∀ p ∈ t.toList, ∀ axis, (p.get axis).isFinite = true
  onLine : ∃ base along : Vec3 ℚ, ∀ p ∈ t.toList, ∃ k, p.map value = base + along.scale k

/-- The test of the triangle has no hit, and leaves the lane of the triangle out in every batch. -/
def Missed (t : Facet) (ray : Ray) : Prop :=
  t.intersect? ray = none ∧
    ∀ (ts : Lanes Facet) (i : Fin 4), ts.get i = t →
      (TriangleBatch.mask ((TriangleBatch.ofTriangles ts).crossings ray)).get i = false

inductive Cancels (t : Facet) (ray : Ray) : Prop
  | second (same : ∀ axis, (t.b.get axis == t.a.get axis) = true)
  | third (same : ∀ axis, (t.c.get axis == t.a.get axis) = true)
  | parallel (axis : Axis)
      (second : ∀ other ≠ axis, (t.b.get other == t.a.get other) = true)
      (third : ∀ other ≠ axis, (t.c.get other == t.a.get other) = true)
  | along (axis : Axis)
      (unit : (ray.direction.get axis == 1) = true ∨ (ray.direction.get axis == -1) = true)
      (flat : ∀ other ≠ axis, (ray.direction.get other == 0) = true)
      (second : ∀ axis, ExactDifference (t.b.get axis) (t.a.get axis))
      (third : ∀ axis, ExactDifference (t.c.get axis) (t.a.get axis))

variable {t : Facet} {ray : Ray}

theorem missed_of_void (void : Void (t.determinant ray)) : t.Missed ray := by
  have none : t.intersect? ray = none := by
    rw [intersect?, PlaneCrossing.accepted_of_void void]
    rfl
  refine ⟨none, fun ts i same => ?_⟩
  rw [← TriangleBatch.isSome_intersect?, same, none]
  rfl

theorem Degenerate.parallel (degenerate : t.Degenerate) (axis other : Axis) :
    (value (t.b.get axis) - value (t.a.get axis)) * (value (t.c.get other) - value (t.a.get other)) =
      (value (t.b.get other) - value (t.a.get other)) *
        (value (t.c.get axis) - value (t.a.get axis)) := by
  obtain ⟨base, along, onLine⟩ := degenerate.onLine
  have on {p : Vec3 Float32} (member : p ∈ t.toList) :
      ∃ k, ∀ axis, value (p.get axis) = base.get axis + along.get axis * k := by
    obtain ⟨k, same⟩ := onLine p member
    refine ⟨k, fun axis => ?_⟩
    rw [← Vec3.get_map value, same]
    cases axis <;> rfl
  obtain ⟨a, first⟩ := on (p := t.a) (by simp [toList])
  obtain ⟨b, second⟩ := on (p := t.b) (by simp [toList])
  obtain ⟨c, third⟩ := on (p := t.c) (by simp [toList])
  simp only [first, second, third]
  ring

theorem Degenerate.exactDeterminant (degenerate : t.Degenerate) (ray : Ray) :
    t.exactDeterminant ray = 0 := by
  have xy := degenerate.parallel .x .y
  have yz := degenerate.parallel .y .z
  have zx := degenerate.parallel .z .x
  simp only [Vec3.get] at xy yz zx
  simp only [Triangle.exactDeterminant, Vec3.dot, Vec3.cross, Vec3.sub_eq, Vec3.map]
  linear_combination -value ray.direction.x * yz - value ray.direction.y * zx -
    value ray.direction.z * xy

theorem void_edge {p q : Vec3 Float32} {axis : Axis} (same : (p.get axis == q.get axis) = true) :
    Void ((p - q).get axis) := by
  rw [Vec3.get_sub]
  exact isNaN_sub_of_beq same

theorem value_edge {p q : Vec3 Float32} (exact : ∀ axis, ExactDifference (p.get axis) (q.get axis))
    (axis : Axis) : ((p - q).get axis).isFinite = true ∧
      value ((p - q).get axis) = value (p.get axis) - value (q.get axis) := by
  rw [Vec3.get_sub]
  exact exact axis

theorem void_determinant (degenerate : t.Degenerate) (cancels : t.Cancels ray) :
    Void (t.determinant ray) := by
  cases cancels with
  | second same => exact Vec3.void_dot fun axis => (void_edge (same axis)).mul _
  | third same =>
      refine Vec3.void_dot fun axis => Void.mul_right ?_ _
      rw [Vec3.get_cross]
      exact ((void_edge (same _)).mul_right _).sub ((void_edge (same _)).mul_right _)
  | parallel axis second third =>
      refine Vec3.void_dot fun other => ?_
      by_cases here : other = axis
      · subst here
        refine Void.mul_right ?_ _
        rw [Vec3.get_cross]
        exact ((void_edge (third _ other.next_ne.2)).mul_right _).sub
          ((void_edge (third _ other.next_ne.1)).mul_right _)
      · exact (void_edge (second other here)).mul _
  | along axis unit flat second third =>
      have edge := value_edge second
      have edge' := value_edge third
      obtain ⟨⟨finiteNext, next⟩, finiteLast, last⟩ :=
        Vec3.value_cross axis unit flat fun axis => (edge' axis).1
      have flatVoid (other : Axis) (different : other ≠ axis) : Void (ray.direction.get other) :=
        .inl (flat other different)
      refine Vec3.void_dot_of_opposite axis (Void.mul_right ?_ _)
        (isNaN_mul (edge _).1 finiteNext) (isNaN_mul (edge _).1 finiteLast) ?_
      · rw [Vec3.get_cross]
        exact ((flatVoid _ axis.next_ne.1).mul _).sub ((flatVoid _ axis.next_ne.2).mul _)
      · -- Both products are rounded, but to opposite numbers, as the edges are parallel.
        rw [key_mul (edge _).1 finiteNext, key_mul (edge _).1 finiteLast, next, last, (edge _).2,
          (edge _).2, (edge' _).2, (edge' _).2, ← rounded_neg]
        congr 1
        linear_combination -value (ray.direction.get axis) *
          degenerate.parallel axis.next axis.next.next

/-- The determinant of a degenerate triangle is never more than noise, and where its rounding errors
cancel the triangle is missed. -/
theorem determinant_of_degenerate (degenerate : t.Degenerate) (ray : Ray) :
    ((t.determinant ray).isFinite = true → |value (t.determinant ray)| ≤ t.noise ray) ∧
      (t.Cancels ray → t.Missed ray) := by
  refine ⟨fun finite => ?_, fun cancels => missed_of_void (void_determinant degenerate cancels)⟩
  have error := abs_determinant_sub_le finite
  rwa [degenerate.exactDeterminant, sub_zero] at error

def diagonal : Facet := ⟨⟨0, 0, 5⟩, ⟨1, 1, 5⟩, ⟨3, 3, 5⟩⟩

def upward : Ray := ⟨⟨0.5, 0.5, 0⟩, ⟨0, 0, 1⟩, ⟨largest, largest, 1⟩, 0⟩

theorem determinant_of_degenerate_diagonal :
    diagonal.Degenerate ∧ |value (diagonal.determinant upward)| ≤ diagonal.noise upward ∧
      diagonal.Cancels upward ∧ diagonal.Missed upward := by
  have degenerate : diagonal.Degenerate := by
    refine ⟨?_, ⟨0, 0, 5⟩, ⟨1, 1, 0⟩, ?_⟩ <;> simp only [diagonal, toList, List.forall_mem_cons]
    · refine ⟨?_, ?_, ?_, by simp⟩ <;> intro axis <;> cases axis <;> rfl
    · exact ⟨⟨0, by decide +kernel⟩, ⟨1, by decide +kernel⟩, ⟨3, by decide +kernel⟩, by simp⟩
  have cancels : diagonal.Cancels upward := by
    refine .along .z (.inl rfl) ?_ ?_ ?_ <;> intro axis <;> cases axis
    · exact fun _ => rfl
    · exact fun _ => rfl
    · exact fun same => absurd rfl same
    all_goals exact ⟨rfl, by decide +kernel⟩
  obtain ⟨small, missed⟩ := determinant_of_degenerate degenerate upward
  exact ⟨degenerate, small (by decide +kernel), cancels, missed cancels⟩

def slanted : Facet := ⟨⟨3, -1, 1⟩, ⟨6, 2, 4⟩, ⟨4, 0, 2⟩⟩

/-- Rounding leaves a rest of the determinant, and a ray hits a line that it does not touch. -/
theorem not_missed_of_degenerate :
    ¬∀ (t : Facet) (origin direction : Vec3 Float32) (ray : Ray), t.Degenerate →
      Ray.toward? origin direction = some ray → t.Missed ray := by
  intro missed
  have degenerate : slanted.Degenerate := by
    refine ⟨?_, ⟨3, -1, 1⟩, ⟨1, 1, 1⟩, ?_⟩ <;> simp only [slanted, toList, List.forall_mem_cons]
    · refine ⟨?_, ?_, ?_, by simp⟩ <;> intro axis <;> cases axis <;> rfl
    · exact ⟨⟨0, by decide +kernel⟩, ⟨3, by decide +kernel⟩, ⟨1, by decide +kernel⟩, by simp⟩
  have hit : ((Ray.toward? ⟨0, 0, 0⟩ ⟨1, 3, 2⟩).map fun ray => (slanted.intersect? ray).isSome) =
      some true := by
    decide +kernel
  obtain ⟨ray, given, some⟩ := Option.map_eq_some_iff.1 hit
  rw [(missed slanted _ _ ray degenerate given).1] at some
  cases some

end Triangle

end BoxTree

import BoxTree.Proofs.Ray
import BoxTree.Proofs.Slab

/-!
# Boxes in boxes

A ray that is in a box is in every box around it, over at least the same distances. This holds for the
rounded distances, for both signs of the direction and for distances that overflow.
-/

namespace BoxTree
open Scalar

/-- On every axis the planes of the first box lie at or beyond those of the second one. -/
def Box.Encloses (a b : Box) : Prop :=
  ∀ axis, a.lower.get axis ≤ b.lower.get axis ∧ b.upper.get axis ≤ a.upper.get axis

namespace Ray

variable {ray : Ray} {axis : Axis} {a b : Box} {tMin tMax d : Float32}

/-- A ray that is parallel to no plane of a box and that starts at a finite point. -/
structure Slanted (ray : Ray) : Prop where
  origin : ∀ axis, (ray.origin.get axis).isFinite = true
  direction : ∀ axis, (ray.direction.get axis == 0) = false
  inverse : ∀ axis, Scales (ray.inverse.get axis)

theorem slanted_of_toward? {origin direction : Vec3 Float32} (made : toward? origin direction = some ray)
    (finite : ∀ axis, (origin.get axis).isFinite = true)
    (oblique : ∀ axis, (ray.direction.get axis == 0) = false) : ray.Slanted := by
  unfold toward? at made
  obtain ⟨unit, normalized, rfl⟩ := Option.map_eq_some_iff.1 made
  refine ⟨finite, oblique, fun axis => ?_⟩
  rw [Vec3.get_map]
  exact scales_boundedInverse (isInf_normalize? normalized axis) (oblique axis)

namespace Slanted

theorem planeDistance (slanted : ray.Slanted) (axis : Axis) (plane unbounded : Float32) :
    ray.planeDistance axis plane unbounded =
      (plane - ray.origin.get axis) * ray.inverse.get axis := by
  rw [Ray.planeDistance, slanted.direction axis, Bool.false_and, if_neg Bool.false_ne_true]

/-- The box around another one has its near plane nearer and its far plane farther away, unless no
distance on the axis is a number. -/
theorem distances (slanted : ray.Slanted) (encloses : a.Encloses b) (axis : Axis) :
    ((ray.nearDistance a axis).isNaN = true ∧ (ray.farDistance a axis).isNaN = true) ∨
      (ray.nearDistance a axis ≤ ray.nearDistance b axis ∧
        ray.farDistance b axis ≤ ray.farDistance a axis) := by
  obtain ⟨lower, upper⟩ := encloses axis
  have start := slanted.origin axis
  rcases slanted.inverse axis with nan | ⟨s, m, e, positive, shape⟩
  · left
    rw [nearDistance, farDistance, slanted.planeDistance, slanted.planeDistance]
    exact ⟨isNaN_mul_of_isNaN_right _ nan, isNaN_mul_of_isNaN_right _ nan⟩
  · right
    have sign := isNegative_of_finite shape
    cases s with
    | positive =>
        have forward : isNegative (ray.inverse.get axis) = false := by
          rw [Bool.eq_false_iff, ne_eq, sign]
          simp only [reduceCtorEq, not_false_eq_true]
        simp only [distances_forward forward, slanted.planeDistance]
        exact ⟨mul_le_mul_of_pos shape (sub_mono start lower),
          mul_le_mul_of_pos shape (sub_mono start upper)⟩
    | negative =>
        simp only [distances_backward (sign.2 rfl), slanted.planeDistance]
        exact ⟨mul_le_mul_of_neg shape (sub_mono start upper),
          mul_le_mul_of_neg shape (sub_mono start lower)⟩

theorem lt_nearDistance (slanted : ray.Slanted) (encloses : a.Encloses b)
    (before : d < ray.nearDistance a axis) : d < ray.nearDistance b axis := by
  rcases slanted.distances encloses axis with ⟨nan, _⟩ | ⟨nearer, _⟩
  · exact absurd before (not_lt_of_isNaN (.inr nan))
  · exact lt_of_lt_of_le_scalar before nearer

theorem farDistance_lt (slanted : ray.Slanted) (encloses : a.Encloses b)
    (behind : ray.farDistance a axis < d) : ray.farDistance b axis < d := by
  rcases slanted.distances encloses axis with ⟨_, nan⟩ | ⟨_, farther⟩
  · exact absurd behind (not_lt_of_isNaN (.inl nan))
  · exact lt_of_le_of_lt_scalar farther behind

end Slanted

/-- A ray that is in a box is in every box that encloses it, from an entry that is no later to an exit
that is no earlier. -/
theorem clip?_of_encloses {origin direction : Vec3 Float32}
    (made : toward? origin direction = some ray)
    (finite : ∀ axis, (origin.get axis).isFinite = true)
    (oblique : ∀ axis, (ray.direction.get axis == 0) = false)
    (numberMin : tMin.isNaN = false) (numberMax : tMax.isNaN = false) (encloses : a.Encloses b)
    {interval : Interval} (clipped : ray.clip? b tMin tMax = some interval) :
    ∃ wide, ray.clip? a tMin tMax = some wide ∧ wide.Contains interval := by
  have slanted := slanted_of_toward? made finite oblique
  rw [clip?_eq] at clipped ⊢
  -- The ends are compared through what lies before and behind them, where distances that are not
  -- numbers drop out.
  refine ⟨_, Interval.Contains.nonempty? ⟨?_, ?_⟩ clipped⟩
  · refine le_of_forall_lt (isNaN_foldl_maxNum numberMin) (isNaN_foldl_maxNum numberMin) fun d before => ?_
    rw [span, lt_foldl_maxNum] at before ⊢
    obtain first | ⟨axis, member, near⟩ := before
    · exact .inl first
    · exact .inr ⟨axis, member, slanted.lt_nearDistance encloses near⟩
  · refine widenFar_mono (le_of_forall_gt (isNaN_foldl_minNum numberMax) (isNaN_foldl_minNum numberMax)
      fun d behind => ?_)
    rw [foldl_minNum_lt] at behind ⊢
    obtain last | ⟨axis, member, far⟩ := behind
    · exact .inl last
    · exact .inr ⟨axis, member, slanted.farDistance_lt encloses far⟩

/-- A ray whose direction is so small on one axis that the inverse is bounded there. -/
def grazing : Ray :=
  (toward? ⟨0, 3, 0⟩ ⟨1, Float32.ofBits 0x800116c2, 1⟩).get (by decide +kernel)

theorem clip?_of_encloses_grazing :
    ∃ interval wide, grazing.clip? ⟨⟨5, 2, 5⟩, ⟨6, 4, 6⟩⟩ 0 infinity = some interval ∧
      grazing.clip? ⟨⟨4, negativeInfinity, 4⟩, ⟨infinity, 4, 6⟩⟩ 0 infinity = some wide ∧
      wide.Contains interval := by
  obtain ⟨interval, clipped⟩ := Option.isSome_iff_exists.1
    (show (grazing.clip? ⟨⟨5, 2, 5⟩, ⟨6, 4, 6⟩⟩ 0 infinity).isSome = true by decide +kernel)
  obtain ⟨wide, clipped', contains⟩ :=
    @clip?_of_encloses grazing ⟨⟨4, negativeInfinity, 4⟩, ⟨infinity, 4, 6⟩⟩ ⟨⟨5, 2, 5⟩, ⟨6, 4, 6⟩⟩
      0 infinity ⟨0, 3, 0⟩ ⟨1, Float32.ofBits 0x800116c2, 1⟩ (Option.some_get _).symm
      (by rintro (_ | _ | _) <;> rfl) (by rintro (_ | _ | _) <;> decide +kernel) rfl isNaN_infinity
      (by rintro (_ | _ | _) <;> decide +kernel) interval clipped
  exact ⟨interval, wide, clipped, clipped', contains⟩

end Ray

end BoxTree

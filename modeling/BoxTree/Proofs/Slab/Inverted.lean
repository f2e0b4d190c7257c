import BoxTree.Proofs.Box.History
import BoxTree.Proofs.Ray.Direction
import BoxTree.Proofs.Slab.Parallel

/-!
# Boxes that are never met

A box that is put together from points and other boxes is only empty where an axis is still inverted. The
planes of such an axis are infinitely far from every ray, and the near one comes after the far one. No limits
make up for that, so neither test ever finds an empty box.
-/

namespace BoxTree
open Scalar Float.Model UnpackedFloat

namespace Scalar

variable {x : Float32}

theorem largest_lt_of_infinity (infinite : x.toModel.unpack = .infinity .positive) : largest < x := by
  refine lt_iff_key.2 ⟨rfl, isNaN_of_infinity infinite, ?_⟩
  rw [key_infinity infinite]
  exact (key_lt_of_finite rfl).2

theorem lt_neg_largest_of_infinity (infinite : x.toModel.unpack = .infinity .negative) : x < -largest := by
  refine lt_iff_key.2 ⟨isNaN_of_infinity infinite, rfl, ?_⟩
  rw [key_infinity infinite]
  exact (key_lt_of_finite rfl).1

end Scalar

theorem Interval.not_nonempty_of_apart {i : Interval} (late : largest < i.entry)
    (early : i.exit ≤ widenFar (-largest)) : ¬i.Nonempty := by
  intro nonempty
  have less := lt_of_lt_of_le_scalar late (le_trans_scalar nonempty early)
  exact absurd less (by decide +kernel)

namespace Ray

variable {ray : Ray} {b : Box} {axis : Axis}

structure Regular (ray : Ray) : Prop where
  origin : ∀ axis, (ray.origin.get axis).isFinite = true
  inverse : ∀ axis, ∃ s m e, ∃ positive : 0 < m,
    (ray.inverse.get axis).toModel.unpack = .finite s m e positive

theorem regular_of_toward? {origin direction : Vec3 Float32}
    (finiteOrigin : ∀ axis, (origin.get axis).isFinite = true)
    (finiteDirection : ∀ axis, (direction.get axis).isFinite = true)
    (made : toward? origin direction = some ray) : ray.Regular := by
  unfold toward? at made
  obtain ⟨unit, normalized, rfl⟩ := Option.map_eq_some_iff.1 made
  refine ⟨finiteOrigin, fun axis => ?_⟩
  obtain ⟨finite, nonzero, _⟩ :=
    boundedInverse_of_finite (finite_of_normalize? finiteDirection normalized axis).1
  rw [Vec3.get_map]
  refine (zero_or_finite finite).resolve_left ?_
  rintro ⟨s, zero⟩
  rw [beq_zero_of_unpack zero] at nonzero
  cases nonzero

theorem Regular.distances_of_inverted (regular : ray.Regular) (inverted : b.Inverted axis) :
    largest < ray.nearDistance b axis ∧ ray.farDistance b axis < -largest := by
  have lower : (b.lower.get axis).toModel.unpack = .infinity .positive := inverted.lower ▸ unpack_infinity
  have upper : (b.upper.get axis).toModel.unpack = .infinity .negative :=
    inverted.upper ▸ unpack_negativeInfinity
  have origin := regular.origin axis
  obtain ⟨s, m, e, positive, factor⟩ := regular.inverse axis
  -- The sign of the inverse decides which plane is the near one and also turns both distances.
  cases s with
  | positive =>
      have forward : isNegative (ray.inverse.get axis) = false := by
        rw [Bool.eq_false_iff, ne_eq, isNegative_of_finite factor]
        exact nofun
      rw [(distances_forward forward b).1, (distances_forward forward b).2]
      exact ⟨largest_lt_of_infinity (unpack_planeDistance origin lower factor _),
        lt_neg_largest_of_infinity (unpack_planeDistance origin upper factor _)⟩
  | negative =>
      have backward := (isNegative_of_finite factor).2 rfl
      rw [(distances_backward backward b).1, (distances_backward backward b).2]
      exact ⟨largest_lt_of_infinity (unpack_planeDistance origin upper factor _),
        lt_neg_largest_of_infinity (unpack_planeDistance origin lower factor _)⟩

theorem Regular.clip?_of_inverted (regular : ray.Regular) (inverted : b.Inverted axis) (tMin tMax : Float32) :
    ray.clip? b tMin tMax = none := by
  obtain ⟨late, early⟩ := regular.distances_of_inverted inverted
  have entry : largest < (ray.span b tMin tMax).entry :=
    lt_foldl_maxNum.2 (.inr ⟨axis, Axis.mem_all axis, late⟩)
  have exit : Axis.all.foldl (fun acc axis => minNum acc (ray.farDistance b axis)) tMax < -largest :=
    foldl_minNum_lt.2 (.inr ⟨axis, Axis.mem_all axis, early⟩)
  rw [clip?_eq, Interval.nonempty?]
  exact if_neg (Interval.not_nonempty_of_apart entry (widenFar_mono (le_of_lt_scalar exit)))

theorem Regular.packedClip_of_inverted (regular : ray.Regular) (inverted : b.Inverted axis)
    (tMin tMax : Float32) : ¬(ray.packedClip b tMin tMax).Nonempty := by
  obtain ⟨late, early⟩ := regular.distances_of_inverted inverted
  have entry : largest < (ray.packedClip b tMin tMax).entry :=
    lt_foldl_maxNum.2 (.inr ⟨axis, Axis.mem_all axis, lt_packedDistance.2 late⟩)
  -- The node looks for the greatest of the negated far distances.
  have turned : largest < ray.packedDistance axis (ray.farPlane b axis) (-1) :=
    (lt_packedDistance_turned (d := -largest) rfl).2 early
  have exit : largest < Axis.all.foldl
      (fun acc axis => maxNum acc (ray.packedDistance axis (ray.farPlane b axis) (-1))) (-tMax) :=
    lt_foldl_maxNum.2 (.inr ⟨axis, Axis.mem_all axis, turned⟩)
  exact Interval.not_nonempty_of_apart entry (widenFar_mono (neg_antitone (le_of_lt_scalar exit)))

end Ray

namespace History

/-- An axis of a box is inverted for want of coordinates that are numbers, or in order. An empty box is found
by neither test, whatever the limits. -/
theorem missed_of_isEmpty (h : History) :
    (∀ axis,
      (∀ p ∈ h.points, (p.get axis).isNaN = true) ∧
          h.box.lower.get axis = Scalar.infinity ∧ h.box.upper.get axis = negativeInfinity ∨
        (∃ p ∈ h.points, (p.get axis).isNaN = false) ∧ h.box.lower.get axis ≤ h.box.upper.get axis) ∧
    (h.box.isEmpty = true → ∀ origin direction ray,
      (∀ axis, (origin.get axis).isFinite = true ∧ (direction.get axis).isFinite = true) →
      Ray.toward? origin direction = some ray → ∀ tMin tMax,
        ray.clip? h.box tMin tMax = none ∧
        ∀ (n : Node) (side : Side), (n.child side).box = h.box →
          ¬((n.clip ray tMin tMax).get side).Nonempty) := by
  constructor
  · intro axis
    exact (h.inverted_or_le axis).imp_left fun ⟨nans, inverted⟩ => ⟨nans, inverted.lower, inverted.upper⟩
  · intro empty origin direction ray finite made tMin tMax
    obtain ⟨axis, inverted⟩ := h.exists_inverted empty
    have regular := Ray.regular_of_toward? (fun axis => (finite axis).1) (fun axis => (finite axis).2) made
    refine ⟨regular.clip?_of_inverted inverted tMin tMax, fun n side same => ?_⟩
    rw [Ray.get_clip, same]
    exact regular.packedClip_of_inverted inverted tMin tMax

def unknown : Float32 := Float32.ofBits 0x7fc00000

/-- The box of two points at unknown places on one axis, one of them infinitely far away on another. -/
def hollow : History :=
  (nothing.insert ⟨unknown, 1, -2⟩).union (nothing.insert ⟨unknown, Scalar.infinity, 3⟩)

theorem missed_of_isEmpty_hollow :
    ∃ ray, Ray.fromCenter ⟨-1, 0, 4⟩ = some ray ∧ hollow.box.isEmpty = true ∧
      ray.clip? hollow.box unknown unknown = none ∧
      ¬((Node.single ⟨hollow.box, .missing⟩).clip ray unknown unknown).left.Nonempty := by
  have empty : hollow.box.isEmpty = true := by decide +kernel
  have made : Ray.fromCenter ⟨-1, 0, 4⟩ = some ((Ray.fromCenter ⟨-1, 0, 4⟩).get (by decide +kernel)) :=
    (Option.some_get _).symm
  obtain ⟨alone, packed⟩ := hollow.missed_of_isEmpty.2 empty ⟨0, 0, 0⟩ ⟨-1, 0, 4⟩ _
    (by rintro (_ | _ | _) <;> exact ⟨rfl, rfl⟩) made unknown unknown
  exact ⟨_, made, empty, alone, packed (.single ⟨hollow.box, .missing⟩) .left rfl⟩

end History

end BoxTree

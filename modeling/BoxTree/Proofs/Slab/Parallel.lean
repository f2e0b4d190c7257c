import BoxTree.Proofs.Ray
import BoxTree.Proofs.Slab

/-!
# Parallel slabs

The inverse of zero is bounded, so that a plane next to a parallel ray is at a finite distance, the more so
the nearer it is. A ray between the planes of a slab is limited by them unless it lies in them or they are
far enough away for the distances that are asked for.
-/

namespace BoxTree
open Scalar Float.Model UnpackedFloat

namespace Scalar

variable {x reach : Float32}

theorem key_mul_neg_largest (number : x.isNaN = false) : key (x * -largest) = -key (x * largest) := by
  rcases finite_or_infinity number with finite | ⟨s, infinite⟩
  · rw [key_mul finite rfl, key_mul finite rfl, value_neg_largest, mul_neg, rounded_neg]
  · rw [key_infinity (infinity_mul infinite unpack_largest),
      key_infinity (infinity_mul infinite unpack_neg_largest)]
    cases s <;> rfl

theorem mul_neg_largest_le (numberX : x.isNaN = false) (number : reach.isNaN = false)
    (le : reach ≤ x * largest) : x * -largest ≤ -reach := by
  obtain ⟨turned, keyTurned⟩ := neg_number number
  refine le_iff_key.2 ⟨isNaN_mul_factor unpack_neg_largest numberX, turned, ?_⟩
  rw [key_mul_neg_largest numberX, keyTurned]
  exact neg_le_neg (le_iff_key.1 le).2.2

theorem le_mul_neg_largest (numberX : x.isNaN = false) (number : reach.isNaN = false)
    (le : x * largest ≤ -reach) : reach ≤ x * -largest := by
  have keys := (le_iff_key.1 le).2.2
  refine le_iff_key.2 ⟨number, isNaN_mul_factor unpack_neg_largest numberX, ?_⟩
  rw [(neg_number number).2] at keys
  rw [key_mul_neg_largest numberX]
  omega

theorem unpack_infinity : Scalar.infinity.toModel.unpack = .infinity .positive := rfl

theorem unpack_negativeInfinity : negativeInfinity.toModel.unpack = .infinity .negative := rfl

theorem beq_of_infinity {y : Float32} {s : Sign} (infinite : x.toModel.unpack = .infinity s)
    (finite : y.isFinite = true) : (x == y) = false := by
  rw [Bool.eq_false_iff]
  intro equal
  have same := (beq_iff_key.1 equal).2.2
  have bounds := key_lt_of_finite finite
  rw [key_infinity infinite] at same
  cases s <;> simp only [Sign.apply] at same <;> omega

end Scalar

def Box.unbounded (b : Box) (axis : Axis) : Box :=
  ⟨b.lower.set axis negativeInfinity, b.upper.set axis infinity⟩

namespace Ray

variable {ray : Ray} {axis : Axis} {b : Box} {d tMin tMax reach : Float32}

structure Parallel (ray : Ray) (axis : Axis) : Prop where
  origin : (ray.origin.get axis).isFinite = true
  direction : (ray.direction.get axis == 0) = true
  inverse : ray.inverse.get axis = largest ∨ ray.inverse.get axis = -largest

theorem boundedInverse_of_zero {a : Float32} (zero : (a == 0) = true) :
    boundedInverse a = largest ∨ boundedInverse a = -largest := by
  rw [boundedInverse, if_pos (isInf_inverse_of_zero zero)]
  split
  · exact .inr rfl
  · exact .inl rfl

theorem origin_of_toward? {origin direction : Vec3 Float32} (made : toward? origin direction = some ray) :
    ray.origin = origin := by
  obtain ⟨_, _, rfl⟩ := Option.map_eq_some_iff.1 made
  rfl

theorem parallel_of_toward? {origin direction : Vec3 Float32} (made : toward? origin direction = some ray)
    (finite : (origin.get axis).isFinite = true) (zero : (ray.direction.get axis == 0) = true) :
    ray.Parallel axis := by
  unfold toward? at made
  obtain ⟨unit, _, rfl⟩ := Option.map_eq_some_iff.1 made
  refine ⟨finite, zero, ?_⟩
  rw [Vec3.get_map]
  exact boundedInverse_of_zero zero

theorem unpack_planeDistance {plane : Float32} {s t : Sign} {m : ℕ} {e : ℤ} {positive : 0 < m}
    (origin : (ray.origin.get axis).isFinite = true) (infinite : plane.toModel.unpack = .infinity s)
    (factor : (ray.inverse.get axis).toModel.unpack = .finite t m e positive) (unbounded : Float32) :
    (ray.planeDistance axis plane unbounded).toModel.unpack = .infinity (s * t) := by
  rw [planeDistance, beq_of_infinity infinite origin, Bool.and_false, if_neg Bool.false_ne_true]
  exact infinity_mul (infinity_sub infinite origin) factor

theorem nearDistance_unbounded_of_ne {other : Axis} (ne : other ≠ axis) :
    ray.nearDistance (b.unbounded axis) other = ray.nearDistance b other := by
  simp only [nearDistance, nearPlane, Box.unbounded, Vec3.get_set_of_ne _ ne]

theorem farDistance_unbounded_of_ne {other : Axis} (ne : other ≠ axis) :
    ray.farDistance (b.unbounded axis) other = ray.farDistance b other := by
  simp only [farDistance, farPlane, Box.unbounded, Vec3.get_set_of_ne _ ne]

namespace Parallel

theorem planeDistance (parallel : ray.Parallel axis) (plane unbounded : Float32) :
    ray.planeDistance axis plane unbounded =
      if plane == ray.origin.get axis then unbounded
      else (plane - ray.origin.get axis) * ray.inverse.get axis := by
  rw [Ray.planeDistance, parallel.direction, Bool.true_and]

theorem distances (parallel : ray.Parallel axis) :
    (ray.inverse.get axis = largest ∧ ∀ b,
      ray.nearDistance b axis = ray.planeDistance axis (b.lower.get axis) negativeInfinity ∧
      ray.farDistance b axis = ray.planeDistance axis (b.upper.get axis) infinity) ∨
    (ray.inverse.get axis = -largest ∧ ∀ b,
      ray.nearDistance b axis = ray.planeDistance axis (b.upper.get axis) negativeInfinity ∧
      ray.farDistance b axis = ray.planeDistance axis (b.lower.get axis) infinity) := by
  rcases parallel.inverse with forward | backward
  · exact .inl ⟨forward, distances_forward (forward ▸ by decide +kernel)⟩
  · exact .inr ⟨backward, distances_backward (backward ▸ by decide +kernel)⟩

theorem isNaN_planeDistance (parallel : ray.Parallel axis) {plane unbounded : Float32}
    (number : plane.isNaN = false) (numberU : unbounded.isNaN = false) :
    (ray.planeDistance axis plane unbounded).isNaN = false := by
  have offset := (rounds_sub parallel.origin).number plane number
  rw [parallel.planeDistance]
  split
  · exact numberU
  · rcases parallel.inverse with forward | backward
    · rw [forward]
      exact isNaN_mul_factor unpack_largest offset
    · rw [backward]
      exact isNaN_mul_factor unpack_neg_largest offset

theorem numbers (parallel : ray.Parallel axis) (lower : (b.lower.get axis).isNaN = false)
    (upper : (b.upper.get axis).isNaN = false) :
    (ray.nearDistance b axis).isNaN = false ∧ (ray.farDistance b axis).isNaN = false := by
  rcases parallel.distances with ⟨_, planes⟩ | ⟨_, planes⟩ <;> rw [(planes b).1, (planes b).2]
  · exact ⟨parallel.isNaN_planeDistance lower isNaN_negativeInfinity,
      parallel.isNaN_planeDistance upper isNaN_infinity⟩
  · exact ⟨parallel.isNaN_planeDistance upper isNaN_negativeInfinity,
      parallel.isNaN_planeDistance lower isNaN_infinity⟩

theorem unpack_distances (parallel : ray.Parallel axis) (b : Box) :
    (ray.nearDistance (b.unbounded axis) axis).toModel.unpack = .infinity .negative ∧
      (ray.farDistance (b.unbounded axis) axis).toModel.unpack = .infinity .positive := by
  rcases parallel.distances with ⟨inverse, planes⟩ | ⟨inverse, planes⟩ <;>
    rw [(planes _).1, (planes _).2, Box.unbounded, Vec3.get_set_self, Vec3.get_set_self]
  · have factor := inverse ▸ unpack_largest
    exact ⟨unpack_planeDistance parallel.origin unpack_negativeInfinity factor _,
      unpack_planeDistance parallel.origin unpack_infinity factor _⟩
  · have factor := inverse ▸ unpack_neg_largest
    exact ⟨unpack_planeDistance parallel.origin unpack_infinity factor _,
      unpack_planeDistance parallel.origin unpack_negativeInfinity factor _⟩

theorem unlimited (parallel : ray.Parallel axis) (b : Box) (number : d.isNaN = false) :
    ¬d < ray.nearDistance (b.unbounded axis) axis ∧
      d ≤ widenFar (ray.farDistance (b.unbounded axis) axis) := by
  obtain ⟨near, far⟩ := parallel.unpack_distances b
  have bounds := key_bounds d
  constructor
  · rw [lt_iff_key, key_infinity near]
    rintro ⟨_, _, less⟩
    simp only [Sign.apply] at less
    omega
  · have numberFar := isNaN_of_infinity far
    refine le_trans_scalar (le_iff_key.2 ⟨number, numberFar, ?_⟩) (le_widenFar numberFar)
    rw [key_infinity far]
    exact bounds.2

theorem within_iff (parallel : ray.Parallel axis) (lower : (b.lower.get axis).isNaN = false)
    (upper : (b.upper.get axis).isNaN = false) (number : d.isNaN = false) :
    ray.Within b d ↔ ray.Within (b.unbounded axis) d ∧
      ray.nearDistance b axis ≤ d ∧ d ≤ widenFar (ray.farDistance b axis) := by
  obtain ⟨numberNear, numberFar⟩ := parallel.numbers lower upper
  obtain ⟨nearest, farthest⟩ := parallel.unlimited b number
  constructor
  · intro within
    refine ⟨fun other => ?_, (not_lt_iff number numberNear).1 (within axis).1, (within axis).2 numberFar⟩
    by_cases same : other = axis
    · rw [same]
      exact ⟨nearest, fun _ => farthest⟩
    · rw [nearDistance_unbounded_of_ne same, farDistance_unbounded_of_ne same]
      exact within other
  · rintro ⟨within, enters, leaves⟩ other
    by_cases same : other = axis
    · rw [same]
      exact ⟨(not_lt_iff number numberNear).2 enters, fun _ => leaves⟩
    · rw [← nearDistance_unbounded_of_ne (b := b) same, ← farDistance_unbounded_of_ne (b := b) same]
      exact within other

theorem reaches (parallel : ray.Parallel axis) (number : reach.isNaN = false)
    (lower : (b.lower.get axis).isNaN = false) (upper : (b.upper.get axis).isNaN = false)
    (below : (b.lower.get axis == ray.origin.get axis) = true ∨
      (b.lower.get axis - ray.origin.get axis) * largest ≤ -reach)
    (above : (b.upper.get axis == ray.origin.get axis) = true ∨
      reach ≤ (b.upper.get axis - ray.origin.get axis) * largest) :
    ray.nearDistance b axis ≤ -reach ∧ reach ≤ ray.farDistance b axis := by
  have turned := (neg_number number).1
  have least : negativeInfinity ≤ -reach :=
    (not_lt_iff turned isNaN_negativeInfinity).1 (not_lt_negativeInfinity _)
  have greatest : reach ≤ Scalar.infinity := (not_lt_iff isNaN_infinity number).1 (not_infinity_lt _)
  have numberLower := (rounds_sub parallel.origin).number _ lower
  have numberUpper := (rounds_sub parallel.origin).number _ upper
  rcases parallel.distances with ⟨inverse, planes⟩ | ⟨inverse, planes⟩ <;>
    rw [(planes b).1, (planes b).2, parallel.planeDistance, parallel.planeDistance, inverse]
  · constructor
    · split
      · exact least
      · next apart => exact below.resolve_left apart
    · split
      · exact greatest
      · next apart => exact above.resolve_left apart
  · constructor
    · split
      · exact least
      · next apart => exact mul_neg_largest_le numberUpper number (above.resolve_left apart)
    · split
      · exact greatest
      · next apart => exact le_mul_neg_largest numberLower number (below.resolve_left apart)

theorem isSome_iff (parallel : ray.Parallel axis) (lower : (b.lower.get axis).isNaN = false)
    (upper : (b.upper.get axis).isNaN = false) (numberMin : tMin.isNaN = false)
    (numberMax : tMax.isNaN = false) :
    (ray.clip? b tMin tMax).isSome = true ↔
      ∃ i d, ray.clip? (b.unbounded axis) tMin tMax = some i ∧ i.entry ≤ d ∧ d ≤ i.exit ∧
        ray.nearDistance b axis ≤ d ∧ d ≤ widenFar (ray.farDistance b axis) := by
  rw [isSome_clip?_iff, clip?_eq]
  constructor
  · rintro ⟨d, inside⟩
    have number := (le_iff.1 inside.1).2.1
    obtain ⟨first, last, within⟩ := (mem_span_iff numberMin numberMax number).1 inside
    obtain ⟨within, planes⟩ := (parallel.within_iff lower upper number).1 within
    obtain ⟨entered, left⟩ := (mem_span_iff numberMin numberMax number).2 ⟨first, last, within⟩
    exact ⟨_, d, Interval.nonempty?_eq_some.2 ⟨le_trans_scalar entered left, rfl⟩, entered, left, planes⟩
  · rintro ⟨i, d, found, entered, left, planes⟩
    obtain ⟨_, rfl⟩ := Interval.nonempty?_eq_some.1 found
    have number := (le_iff.1 entered).2.1
    obtain ⟨first, last, within⟩ := (mem_span_iff numberMin numberMax number).1 ⟨entered, left⟩
    exact ⟨d, (mem_span_iff numberMin numberMax number).2
      ⟨first, last, (parallel.within_iff lower upper number).2 ⟨within, planes⟩⟩⟩

theorem isSome_iff_of_reach (parallel : ray.Parallel axis) (lower : (b.lower.get axis).isNaN = false)
    (upper : (b.upper.get axis).isNaN = false) (first : -reach ≤ tMin) (last : tMax ≤ reach)
    (near : ray.nearDistance b axis ≤ -reach) (far : reach ≤ ray.farDistance b axis) :
    (ray.clip? b tMin tMax).isSome = true ↔ (ray.clip? (b.unbounded axis) tMin tMax).isSome = true := by
  have numberMin := (le_iff.1 first).2.1
  have numberMax := (le_iff.1 last).1
  rw [parallel.isSome_iff lower upper numberMin numberMax, Option.isSome_iff_exists]
  constructor
  · rintro ⟨i, _, found, _⟩
    exact ⟨i, found⟩
  · rintro ⟨i, found⟩
    rw [clip?_eq] at found ⊢
    obtain ⟨nonempty, rfl⟩ := Interval.nonempty?_eq_some.1 found
    -- The entry without the slab lies between the limits, and so between the planes.
    have entered := le_refl_scalar (le_iff.1 nonempty).1
    obtain ⟨later, sooner, _⟩ :=
      (mem_span_iff numberMin numberMax (le_iff.1 nonempty).1).1 ⟨entered, nonempty⟩
    exact ⟨_, _, found, entered, nonempty, le_trans_scalar near (le_trans_scalar first later),
      le_trans_scalar sooner (widenFar_mono (le_trans_scalar last far))⟩

end Parallel

/-- A ray that is parallel to a slab and starts in it is in the box as far as it is in the box without the
slab, between the distances of the planes. The planes make no difference between limits that they are not
nearer than. -/
theorem isSome_clip?_parallel {origin direction : Vec3 Float32}
    (made : toward? origin direction = some ray) (finite : (origin.get axis).isFinite = true)
    (zero : (ray.direction.get axis == 0) = true) (lower : b.lower.get axis ≤ origin.get axis)
    (upper : origin.get axis ≤ b.upper.get axis) (numberMin : tMin.isNaN = false)
    (numberMax : tMax.isNaN = false) :
    ((ray.clip? b tMin tMax).isSome = true ↔
      ∃ i d, ray.clip? (b.unbounded axis) tMin tMax = some i ∧ i.entry ≤ d ∧ d ≤ i.exit ∧
        ray.nearDistance b axis ≤ d ∧ d ≤ widenFar (ray.farDistance b axis)) ∧
    ∀ reach, -reach ≤ tMin → tMax ≤ reach →
      ((b.lower.get axis == origin.get axis) = true ∨
        (b.lower.get axis - origin.get axis) * largest ≤ -reach) →
      ((b.upper.get axis == origin.get axis) = true ∨
        reach ≤ (b.upper.get axis - origin.get axis) * largest) →
      ((ray.clip? b tMin tMax).isSome = true ↔
        (ray.clip? (b.unbounded axis) tMin tMax).isSome = true) := by
  have parallel := parallel_of_toward? made finite zero
  obtain rfl := origin_of_toward? made
  have numberLower := (le_iff.1 lower).1
  have numberUpper := (le_iff.1 upper).2.1
  refine ⟨parallel.isSome_iff numberLower numberUpper numberMin numberMax, ?_⟩
  intro reach first last below above
  obtain ⟨near, far⟩ :=
    parallel.reaches (le_iff.1 last).2.1 numberLower numberUpper below above
  exact parallel.isSome_iff_of_reach numberLower numberUpper first last near far

def rising (origin : Vec3 Float32) : Option Ray := toward? origin ⟨0, 0, 1⟩

theorem isSome_clip?_parallel_inPlane :
    ∃ ray, rising ⟨5, 7, 0⟩ = some ray ∧ (ray.clip? ⟨⟨5, 5, 5⟩, ⟨10, 10, 10⟩⟩ 0 100).isSome = true := by
  have made : rising ⟨5, 7, 0⟩ = some ((rising ⟨5, 7, 0⟩).get (by decide +kernel)) :=
    (Option.some_get _).symm
  refine ⟨_, made, ?_⟩
  have same := (@isSome_clip?_parallel ((rising ⟨5, 7, 0⟩).get (by decide +kernel)) .x
    ⟨⟨5, 5, 5⟩, ⟨10, 10, 10⟩⟩ 0 100 ⟨5, 7, 0⟩ ⟨0, 0, 1⟩ made rfl (by decide +kernel) (by decide +kernel)
    (by decide +kernel) rfl rfl).2 100 (by decide +kernel) (by decide +kernel) (.inl (by decide +kernel))
    (.inr (by decide +kernel))
  exact same.2 (by decide +kernel)

/-- The least normal number is too near for a box at a distance of five. -/
theorem not_isSome_clip?_iff_unbounded :
    ¬∀ (origin direction : Vec3 Float32) (ray : Ray) (axis : Axis) (b : Box) (tMin tMax : Float32),
      (∀ axis, (origin.get axis).isFinite = true ∧ (direction.get axis).isFinite = true) →
      toward? origin direction = some ray → (ray.direction.get axis == 0) = true →
      (∀ axis, (b.lower.get axis).isFinite = true ∧ (b.upper.get axis).isFinite = true) →
      b.lower.get axis ≤ ray.origin.get axis → ray.origin.get axis ≤ b.upper.get axis →
      tMin.isFinite = true → tMax.isFinite = true → tMin ≤ tMax →
      ((ray.clip? b tMin tMax).isSome = true ↔
        (ray.clip? (b.unbounded axis) tMin tMax).isSome = true) := by
  intro unlimited
  have same := unlimited ⟨0, 0, 0⟩ ⟨0, 0, 1⟩ ((rising ⟨0, 0, 0⟩).get (by decide +kernel)) .x
    ⟨⟨-1, -1, 5⟩, ⟨Float32.ofBits 0x00800000, 1, 10⟩⟩ 0 100 (by rintro (_ | _ | _) <;> exact ⟨rfl, rfl⟩)
    (Option.some_get _).symm (by decide +kernel) (by rintro (_ | _ | _) <;> exact ⟨rfl, rfl⟩)
    (by decide +kernel) (by decide +kernel) rfl rfl (by decide +kernel)
  exact absurd (same.2 (by decide +kernel)) (by decide +kernel)

end Ray

end BoxTree

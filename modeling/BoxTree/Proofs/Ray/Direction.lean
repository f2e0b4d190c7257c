import BoxTree.Proofs.Ray
import BoxTree.Proofs.Scalar.Error

/-!
# Directions and their signs

The direction of a ray has the signs that it was given, and so have its inverses, which are always finite and
not zero. It has a component other than zero exactly if the square of the given length is finite.
-/

namespace BoxTree
open Scalar Float.Model UnpackedFloat

namespace Scalar

variable {x y : Float32}

/-! ## Zero and infinity -/

theorem unpack_div_infinity {s : Sign} (finite : x.isFinite = true)
    (infinite : y.toModel.unpack = .infinity s) : ∃ t, (x / y).toModel.unpack = .zero t := by
  have quotient : ∃ t, UnpackedFloat.div .binary32 x.toModel.unpack (.infinity s) = .zero t := by
    rcases zero_or_finite finite with ⟨t, shape⟩ | ⟨t, m, e, positive, shape⟩
    · exact ⟨t / s, by rw [shape]; rfl⟩
    · exact ⟨t / s, by simp only [shape, UnpackedFloat.div]⟩
  obtain ⟨t, vanishes⟩ := quotient
  refine ⟨t, ?_⟩
  change UnpackedFloat.unpack .binary32 (UnpackedFloat.pack .binary32
    (UnpackedFloat.div .binary32 x.toModel.unpack y.toModel.unpack)) = .zero t
  rw [infinite, vanishes]
  cases t <;> rfl

theorem beq_zero_of_unpack {s : Sign} (shape : x.toModel.unpack = .zero s) : (x == 0) = true := by
  refine beq_iff_key.2 ⟨congrArg UnpackedFloat.isNaN shape, rfl, ?_⟩
  rw [key, shape]
  rfl

theorem beq_zero_of_finite {s : Sign} {m : ℕ} {e : ℤ} {positive : 0 < m}
    (shape : x.toModel.unpack = .finite s m e positive) : (x == 0) = false := by
  rw [Bool.eq_false_iff]
  intro zero
  obtain ⟨_, vanishes⟩ := unpack_of_beq_zero zero
  rw [shape] at vanishes
  cases vanishes

theorem isNaN_of_isInf (infinite : x.isInf = true) : x.isNaN = false := by
  obtain ⟨s, shape⟩ := infinity_of_isInf infinite
  exact isNaN_of_infinity shape

/-! ## Sums of squares -/

theorem add_le_twice (finite : (x + y).isFinite = true) (nonneg : 0 ≤ value x + value y) :
    value (x + y) ≤ 2 * (value x + value y) := by
  have error := (abs_le.1 (add_error finite)).2
  rw [abs_of_nonneg nonneg, unitError] at error
  linarith

theorem square_le_twice (finite : (x * x).isFinite = true) :
    value (x * x) ≤ 2 * value x ^ 2 + leastError := by
  have finiteX := (finite_of_mul finite).1
  have error := (abs_le.1 (mul_error finite finiteX finiteX)).2
  have nonneg := mul_self_nonneg (value x)
  rw [abs_of_nonneg nonneg, unitError] at error
  linarith [sq (value x)]

/-! ## Roots -/

theorem value_greatest_root : value (Float32.ofBits 0x60000000) = 2 ^ (65 : ℤ) := by
  have shape : (Float32.ofBits 0x60000000).toModel.unpack = .finite .positive 0x800000 42 (by decide) := rfl
  rw [value_of_unpack shape, Sign.apply]
  norm_num

theorem sqrt_bounds (finite : x.isFinite = true) (positive : 0 < value x) :
    x.sqrt.isFinite = true ∧ value x.sqrt ≤ 2 ^ (65 : ℤ) := by
  obtain ⟨number, q, place, square, _⟩ := key_sqrt finite positive
  have greatest := (le_abs_self _).trans (abs_value_le finite)
  rw [value_largest] at greatest
  have bounded : |q| ≤ 2 ^ (65 : ℤ) := by
    apply abs_le_of_sq_le_sq _ (by positivity)
    calc q ^ 2 ≤ 4 * (0xffffff * 2 ^ (104 : ℤ)) := square.trans (by linarith)
      _ ≤ (2 ^ (65 : ℤ)) ^ 2 := by norm_num
  have room : (2 : ℚ) ^ (65 : ℤ) ≤ value largest := by
    rw [value_largest]
    norm_num
  have finiteRoot := Ray.finite_of_not_isInf number (isInf_of_rounded number place (bounded.trans room))
  refine ⟨finiteRoot, ?_⟩
  rw [← value_greatest_root]
  apply value_le_of_rounded finiteRoot rfl place
  rw [value_greatest_root]
  exact (le_abs_self q).trans bounded

end Scalar

namespace Ray

variable {v d : Vec3 Float32} {a x : Float32}

/-! ## Lengths -/

theorem length_cases (long : v.dot v > minLength * minLength) :
    ((v.dot v).isFinite = true ∧ (2 : ℚ) ^ (2 * -30 : ℤ) ≤ value (v.dot v) ∧
        (v.dot v).sqrt.isFinite = true ∧ 0 < value (v.dot v).sqrt ∧ value (v.dot v).sqrt ≤ 2 ^ (65 : ℤ)) ∨
      ((v.dot v).isFinite = false ∧ (v.dot v).sqrt.toModel.unpack = .infinity .positive) := by
  rcases finite_or_infinity (lt_iff.1 long).2.1 with finite | ⟨s, infinite⟩
  · have least := least_of_long long finite
    obtain ⟨finiteRoot, most⟩ := sqrt_bounds finite (lt_of_lt_of_le (by positivity) least)
    have positive := (length_bounds finite finiteRoot least .x).1
    exact .inl ⟨finite, least, finiteRoot, lt_of_lt_of_le (by positivity) positive, most⟩
  · right
    refine ⟨?_, unpack_sqrt_of_infinity long infinite⟩
    change (v.dot v).toModel.unpack.isFinite = false
    rw [infinite]
    rfl

theorem isNegative_length (long : v.dot v > minLength * minLength) : isNegative (v.dot v).sqrt = false := by
  rcases length_cases long with ⟨_, _, finiteRoot, positive, _⟩ | ⟨_, infinite⟩
  · exact isNegative_of_pos finiteRoot positive
  · have sign := isNegative_iff_signOf (isNaN_of_infinity infinite)
    rw [infinite] at sign
    rw [Bool.eq_false_iff, ne_eq, sign]
    exact nofun

/-! ## Components -/

theorem exists_far (finite : (v.dot v).isFinite = true) (least : (2 : ℚ) ^ (2 * -30 : ℤ) ≤ value (v.dot v)) :
    ∃ axis, (2 : ℚ) ^ (-33 : ℤ) ≤ |value (v.get axis)| := by
  by_contra near
  simp only [not_exists, not_le] at near
  have square (axis : Axis) (finite : (v.get axis * v.get axis).isFinite = true) :
      value (v.get axis * v.get axis) ≤ 2 ^ (-64 : ℤ) := by
    have small : value (v.get axis) ^ 2 ≤ (2 ^ (-33 : ℤ)) ^ 2 :=
      sq_le_sq' (abs_lt.1 (near axis)).1.le (abs_lt.1 (near axis)).2.le
    have := square_le_twice finite
    rw [leastError] at this
    norm_num at this small ⊢
    linarith
  change (v.x * v.x + v.y * v.y + v.z * v.z).isFinite = true at finite
  change _ ≤ value (v.x * v.x + v.y * v.y + v.z * v.z) at least
  obtain ⟨finiteXY, finiteZ⟩ := finite_of_add finite
  obtain ⟨finiteX, finiteY⟩ := finite_of_add finiteXY
  have nonnegX := square_nonneg finiteX
  have nonnegY := square_nonneg finiteY
  have nonnegXY := nonnegX.trans (le_add_of_nonneg finiteXY nonnegX nonnegY).1
  have sumXY := add_le_twice finiteXY (add_nonneg nonnegX nonnegY)
  have sum := add_le_twice finite (add_nonneg nonnegXY (square_nonneg finiteZ))
  have squareX := square .x finiteX
  have squareY := square .y finiteY
  have squareZ := square .z finiteZ
  have less : (10 : ℚ) * 2 ^ (-64 : ℤ) < 2 ^ (2 * -30 : ℤ) := by norm_num
  simp only [Vec3.get] at squareX squareY squareZ
  linarith

theorem div_ne_zero {s : Float32} (finiteX : x.isFinite = true) (far : (2 : ℚ) ^ (-33 : ℤ) ≤ |value x|)
    (finiteS : s.isFinite = true) (positive : 0 < value s) (most : value s ≤ 2 ^ (65 : ℤ)) :
    (x / s == 0) = false := by
  have least : (2 : ℚ) ^ (-149 : ℤ) ≤ |value x / value s| := by
    rw [abs_div, abs_of_pos positive, le_div_iff₀ positive]
    calc (2 : ℚ) ^ (-149 : ℤ) * value s ≤ 2 ^ (-149 : ℤ) * 2 ^ (65 : ℤ) :=
          mul_le_mul_of_nonneg_left most (by positivity)
      _ ≤ 2 ^ (-33 : ℤ) := by norm_num
      _ ≤ |value x| := far
  rw [Bool.eq_false_iff]
  intro zero
  have place := (beq_iff_key.1 zero).2.2
  rw [key_div finiteX finiteS positive.ne'] at place
  exact rounded_ne_zero least place

theorem finite_of_normalize? (finite : ∀ axis, (v.get axis).isFinite = true) (normalized : normalize? v = some d)
    (axis : Axis) :
    (d.get axis).isFinite = true ∧ isNegative (d.get axis) = isNegative (v.get axis) := by
  have bounded := isInf_normalize? normalized axis
  unfold normalize? at normalized
  obtain ⟨long, same⟩ := Option.ite_none_right_eq_some.1 normalized
  obtain rfl := Option.some.inj same
  rw [Vec3.divide, Vec3.get_map] at bounded ⊢
  have number : (v.get axis / (v.dot v).sqrt).isNaN = false := by
    rcases length_cases long with ⟨_, _, finiteRoot, positive, _⟩ | ⟨_, infinite⟩
    · exact isNaN_div (finite axis) finiteRoot positive.ne'
    · obtain ⟨_, vanishes⟩ := unpack_div_infinity (finite axis) infinite
      exact congrArg UnpackedFloat.isNaN vanishes
  refine ⟨finite_of_not_isInf number bounded, ?_⟩
  rw [isNegative_div number, isNegative_length long, Bool.xor_false]

theorem nonzero_normalize?_iff (finite : ∀ axis, (v.get axis).isFinite = true)
    (normalized : normalize? v = some d) :
    (∃ axis, (d.get axis == 0) = false) ↔ (v.dot v).isFinite = true := by
  unfold normalize? at normalized
  obtain ⟨long, same⟩ := Option.ite_none_right_eq_some.1 normalized
  obtain rfl := Option.some.inj same
  simp only [Vec3.divide, Vec3.get_map]
  rcases length_cases long with ⟨finiteDot, least, finiteRoot, positive, most⟩ | ⟨overflow, infinite⟩
  · obtain ⟨axis, far⟩ := exists_far finiteDot least
    exact iff_of_true ⟨axis, div_ne_zero (finite axis) far finiteRoot positive most⟩ finiteDot
  · refine iff_of_false ?_ (Bool.eq_false_iff.1 overflow)
    rintro ⟨axis, nonzero⟩
    obtain ⟨_, vanishes⟩ := unpack_div_infinity (finite axis) infinite
    rw [beq_zero_of_unpack vanishes] at nonzero
    cases nonzero

/-! ## Inverses -/

theorem boundedInverse_of_finite (finite : a.isFinite = true) :
    (boundedInverse a).isFinite = true ∧ (boundedInverse a == 0) = false ∧
      isNegative (boundedInverse a) = isNegative a := by
  have sign (number : (1 / a).isNaN = false) : isNegative (1 / a) = isNegative a := by
    have one : isNegative 1 = false := rfl
    rw [isNegative_div number, one, Bool.false_xor]
  by_cases infinite : (1 / a).isInf = true
  · rw [boundedInverse, if_pos infinite, ← sign (isNaN_of_isInf infinite)]
    cases isNegative (1 / a) with
    | true => exact ⟨rfl, by decide +kernel, by decide +kernel⟩
    | false => exact ⟨rfl, by decide +kernel, by decide +kernel⟩
  · have bounded : (1 / a).isInf = false := Bool.not_eq_true _ ▸ infinite
    have nonzero : (a == 0) = false :=
      Bool.eq_false_iff.2 fun zero => infinite (isInf_inverse_of_zero zero)
    obtain ⟨s, m, e, positive, shape⟩ := unpack_inverse finite nonzero bounded
    rw [boundedInverse, if_neg infinite]
    exact ⟨isFinite_of_unpack shape, beq_zero_of_finite shape,
      sign (isNaN_of_finite (isFinite_of_unpack shape))⟩

/-! ## Rays -/

/-- A ray has the signs of the direction that it was given, and so do its inverses, which are finite and not
zero. The direction of the ray vanishes just when the square of the given length is infinite. -/
theorem toward?_signs {origin direction : Vec3 Float32} {ray : Ray}
    (finite : ∀ axis, (direction.get axis).isFinite = true) (made : toward? origin direction = some ray) :
    (∀ axis, (ray.direction.get axis).isFinite = true ∧
      isNegative (ray.direction.get axis) = isNegative (direction.get axis)) ∧
    ((∃ axis, (ray.direction.get axis == 0) = false) ↔ (direction.dot direction).isFinite = true) ∧
    ∀ axis, (ray.inverse.get axis).isFinite = true ∧ (ray.inverse.get axis == 0) = false ∧
      isNegative (ray.inverse.get axis) = isNegative (ray.direction.get axis) := by
  unfold toward? at made
  obtain ⟨unit, normalized, rfl⟩ := Option.map_eq_some_iff.1 made
  have kept := finite_of_normalize? finite normalized
  refine ⟨kept, nonzero_normalize?_iff finite normalized, fun axis => ?_⟩
  rw [Vec3.get_map]
  exact boundedInverse_of_finite (kept axis).1

def fromCenter (direction : Vec3 Float32) : Option Ray := toward? ⟨0, 0, 0⟩ direction

theorem toward?_signs_zeros :
    ∃ ray, fromCenter ⟨0, -0, -4⟩ = some ray ∧ (∃ axis, (ray.direction.get axis == 0) = false) ∧
      ∀ axis, (ray.inverse.get axis).isFinite = true ∧ (ray.inverse.get axis == 0) = false ∧
        isNegative (ray.inverse.get axis) = isNegative (ray.direction.get axis) := by
  have made : fromCenter ⟨0, -0, -4⟩ = some ((fromCenter ⟨0, -0, -4⟩).get (by decide +kernel)) :=
    (Option.some_get _).symm
  obtain ⟨_, nonzero, inverse⟩ := toward?_signs (by rintro (_ | _ | _) <;> rfl) made
  exact ⟨_, made, nonzero.2 (by decide +kernel), inverse⟩

/-- A length of about `1e30` has an infinite square. -/
theorem not_toward?_nonzero :
    ¬∀ (origin direction : Vec3 Float32), (∀ axis, (direction.get axis).isFinite = true) →
      ∀ ray, toward? origin direction = some ray →
        (∀ axis, (ray.direction.get axis).isNaN = false) ∧
        (∃ axis, (ray.direction.get axis == 0) = false) ∧
        ∀ axis, (ray.inverse.get axis).isFinite = true ∧ (ray.inverse.get axis == 0) = false ∧
          isNegative (ray.inverse.get axis) = isNegative (ray.direction.get axis) := by
  intro always
  obtain ⟨_, ⟨axis, nonzero⟩, _⟩ := always ⟨0, 0, 0⟩ ⟨Float32.ofBits 0x7149f2ca, 0, 0⟩
    (by rintro (_ | _ | _) <;> rfl) ((fromCenter ⟨Float32.ofBits 0x7149f2ca, 0, 0⟩).get (by decide +kernel))
    (Option.some_get _).symm
  revert nonzero
  cases axis <;> decide +kernel

end Ray

end BoxTree

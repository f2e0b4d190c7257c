import BoxTree.Proofs.Scalar.Signs
import BoxTree.Ray

/-!
# Directions

No component of a direction of length one is infinite. The bounded inverse of a component other than zero
is finite and not zero, or not a number if the component is none.
-/

namespace BoxTree
open Scalar Float.Model UnpackedFloat

namespace Scalar

variable {x y p : Float32} {q : ℚ}

/-! ## Values of rounded results -/

theorem le_value_of_rounded (finite : x.isFinite = true) (finiteP : p.isFinite = true)
    (place : key x = rounded q) (le : value p ≤ q) : value p ≤ value x := by
  apply value_le_of_key_le finiteP finite
  rw [place, ← rounded_eq_key finiteP]
  exact rounded_mono le

theorem value_le_of_rounded (finite : x.isFinite = true) (finiteP : p.isFinite = true)
    (place : key x = rounded q) (le : q ≤ value p) : value x ≤ value p := by
  apply value_le_of_key_le finite finiteP
  rw [place, ← rounded_eq_key finiteP]
  exact rounded_mono le

theorem value_one : value 1 = 1 := by
  have shape : (1 : Float32).toModel.unpack = .finite .positive 0x800000 (-23) (by decide) := rfl
  rw [value_of_unpack shape, Sign.apply]
  norm_num

theorem unpack_largest : largest.toModel.unpack = .finite .positive 0xffffff 104 (by decide) := rfl

theorem unpack_neg_largest :
    (-largest).toModel.unpack = .finite .negative 0xffffff 104 (by decide) := rfl

theorem value_largest : value largest = 0xffffff * 2 ^ (104 : ℤ) := by
  rw [value_of_unpack unpack_largest, Sign.apply]
  norm_num

theorem value_neg_largest : value (-largest) = -value largest := by
  rw [value_of_unpack unpack_neg_largest, value_largest, Sign.apply]
  norm_num

theorem abs_value_le (finite : x.isFinite = true) : |value x| ≤ value largest := by
  have bounds := key_lt_of_finite finite
  have greatest : key largest = 0x7f7fffff ∧ key (-largest) = -0x7f7fffff := ⟨rfl, rfl⟩
  rw [abs_le, ← value_neg_largest]
  exact ⟨value_le_of_key_le rfl finite (by omega), value_le_of_key_le finite rfl (by omega)⟩

theorem isInf_of_rounded (number : x.isNaN = false) (place : key x = rounded q)
    (bounded : |q| ≤ value largest) : x.isInf = false := by
  have greatest : key largest = 0x7f7fffff := rfl
  have upper := rounded_mono (abs_le.1 bounded).2
  have lower := rounded_mono (abs_le.1 bounded).1
  rw [rounded_neg] at lower
  rw [rounded_eq_key (x := largest) rfl, greatest, ← place] at upper lower
  change x.toModel.unpack.isInf = false
  rcases zero_or_finite (finite_of_key number (by omega) (by omega)) with
    ⟨s, shape⟩ | ⟨s, m, e, positive, shape⟩ <;> rw [shape] <;> rfl

theorem finite_of_mul (finite : (x * y).isFinite = true) :
    x.isFinite = true ∧ y.isFinite = true := by
  have parts (u v : UnpackedFloat) (finite : (UnpackedFloat.mul .binary32 u v).isFinite = true) :
      u.isFinite = true ∧ v.isFinite = true := by
    cases u <;> cases v <;> first | exact ⟨rfl, rfl⟩ | cases finite
  exact parts _ _ (isFinite_of_pack finite)

theorem square_nonneg (finite : (x * x).isFinite = true) : 0 ≤ value (x * x) := by
  have finiteX := (finite_of_mul finite).1
  exact le_value_of_rounded (p := 0) finite rfl (key_mul finiteX finiteX) (mul_self_nonneg (value x))

theorem one_le_square (finite : (x * x).isFinite = true) (large : 1 ≤ |value x|) :
    1 ≤ value (x * x) := by
  have finiteX := (finite_of_mul finite).1
  rw [← value_one]
  apply le_value_of_rounded finite rfl (key_mul finiteX finiteX)
  rw [value_one, ← abs_mul_abs_self]
  nlinarith

theorem le_add_of_nonneg (finite : (x + y).isFinite = true) (nonnegX : 0 ≤ value x)
    (nonnegY : 0 ≤ value y) : value x ≤ value (x + y) ∧ value y ≤ value (x + y) := by
  obtain ⟨finiteX, finiteY⟩ := finite_of_add finite
  have place := key_add finiteX finiteY
  exact ⟨le_value_of_rounded finite finiteX place (by linarith),
    le_value_of_rounded finite finiteY place (by linarith)⟩

theorem isInf_div_infinity {s : Sign} (infinite : y.toModel.unpack = .infinity s) :
    (x / y).isInf = false := by
  have quotient : UnpackedFloat.div .binary32 x.toModel.unpack (.infinity s) = .notANumber ∨
      ∃ t, UnpackedFloat.div .binary32 x.toModel.unpack (.infinity s) = .zero t := by
    cases x.toModel.unpack with
    | notANumber => exact .inl rfl
    | infinity t => exact .inl rfl
    | zero t => exact .inr ⟨t / s, rfl⟩
    | finite t m e positive => exact .inr ⟨t / s, by simp only [UnpackedFloat.div]⟩
  change (UnpackedFloat.unpack .binary32 (UnpackedFloat.pack .binary32
    (UnpackedFloat.div .binary32 x.toModel.unpack y.toModel.unpack))).isInf = false
  rw [infinite]
  rcases quotient with nan | ⟨t, zero⟩
  · rw [nan]
    decide +kernel
  · rw [zero]
    cases t <;> rfl

theorem value_ne_zero (finite : x.isFinite = true) (nonzero : (x == 0) = false) : value x ≠ 0 := by
  intro zero
  have place := rounded_eq_key finite
  rw [zero, rounded_zero] at place
  have same : (x == 0) = true := beq_iff_key.2 ⟨isNaN_of_finite finite, rfl, place.symm⟩
  rw [same] at nonzero
  cases nonzero

theorem unpack_of_beq_zero (zero : (x == 0) = true) : ∃ s, x.toModel.unpack = .zero s := by
  obtain ⟨number, _, same⟩ := beq_iff_key.1 zero
  rcases rank_inj (canonical_unpack x) (canonical_unpack 0) number rfl same with equal | ⟨s, _, shape, _⟩
  · exact ⟨.positive, equal⟩
  · exact ⟨s, shape⟩

end Scalar

namespace Ray

variable {v d : Vec3 Float32} {x p : Float32}

/-! ## Directions -/

theorem square_le_dot (finite : (v.dot v).isFinite = true) (axis : Axis) :
    (v.get axis * v.get axis).isFinite = true ∧
      value (v.get axis * v.get axis) ≤ value (v.dot v) := by
  change (v.x * v.x + v.y * v.y + v.z * v.z).isFinite = true at finite
  obtain ⟨finiteXY, finiteZ⟩ := finite_of_add finite
  obtain ⟨finiteX, finiteY⟩ := finite_of_add finiteXY
  have nonnegX := square_nonneg finiteX
  have nonnegY := square_nonneg finiteY
  obtain ⟨leX, leY⟩ := le_add_of_nonneg finiteXY nonnegX nonnegY
  obtain ⟨leXY, leZ⟩ := le_add_of_nonneg finite (nonnegX.trans leX) (square_nonneg finiteZ)
  cases axis with
  | x => exact ⟨finiteX, leX.trans leXY⟩
  | y => exact ⟨finiteY, leY.trans leXY⟩
  | z => exact ⟨finiteZ, leZ⟩

theorem le_value_sqrt (finite : x.isFinite = true) (finiteRoot : x.sqrt.isFinite = true)
    (finiteP : p.isFinite = true) {k : ℤ} (power : value p = 2 ^ k)
    (square : (2 : ℚ) ^ (2 * k) ≤ value x) : value p ≤ value x.sqrt := by
  have positive : 0 < value x := lt_of_lt_of_le (by positivity) square
  obtain ⟨_, q, place, _, bound⟩ := key_sqrt finite positive
  exact le_value_of_rounded finiteRoot finiteP place (power ▸ bound k square)

theorem abs_div_le {a s : ℚ} (bounded : |a| ≤ value largest) (least : (2 : ℚ) ^ (-30 : ℤ) ≤ s)
    (large : 1 ≤ |a| → 1 ≤ s) : |a / s| ≤ value largest := by
  have positive : 0 < s := lt_of_lt_of_le (by positivity) least
  rw [abs_div, abs_of_pos positive, div_le_iff₀ positive]
  rcases le_or_gt 1 |a| with far | near
  · nlinarith [large far, abs_nonneg a]
  · have greatest : (2 : ℚ) ^ (30 : ℤ) ≤ value largest := by
      rw [value_largest]
      norm_num
    calc |a| ≤ 2 ^ (30 : ℤ) * 2 ^ (-30 : ℤ) := by
          rw [← zpow_add₀ two_ne_zero]
          exact near.le
      _ ≤ value largest * s := mul_le_mul greatest least (by positivity) (by linarith [abs_nonneg a])

theorem value_least_root : value (Float32.ofBits 0x30800000) = 2 ^ (-30 : ℤ) := by
  have shape : (Float32.ofBits 0x30800000).toModel.unpack = .finite .positive 0x800000 (-53) (by decide) := rfl
  rw [value_of_unpack shape, Sign.apply]
  norm_num

theorem value_least_square : value (Float32.ofBits 0x21800000) = 2 ^ (2 * -30 : ℤ) := by
  have shape : (Float32.ofBits 0x21800000).toModel.unpack = .finite .positive 0x800000 (-83) (by decide) := rfl
  rw [value_of_unpack shape, Sign.apply]
  norm_num

theorem length_bounds (finite : (v.dot v).isFinite = true) (finiteRoot : (v.dot v).sqrt.isFinite = true)
    (least : (2 : ℚ) ^ (2 * -30 : ℤ) ≤ value (v.dot v)) (axis : Axis) :
    (2 : ℚ) ^ (-30 : ℤ) ≤ value (v.dot v).sqrt ∧
      (1 ≤ |value (v.get axis)| → 1 ≤ value (v.dot v).sqrt) := by
  constructor
  · rw [← value_least_root]
    exact le_value_sqrt finite finiteRoot rfl value_least_root least
  · intro large
    obtain ⟨finiteSquare, below⟩ := square_le_dot finite axis
    have square := (one_le_square finiteSquare large).trans below
    rw [← value_one]
    exact le_value_sqrt (k := 0) finite finiteRoot rfl value_one square

theorem least_of_long (long : v.dot v > minLength * minLength) (finite : (v.dot v).isFinite = true) :
    (2 : ℚ) ^ (2 * -30 : ℤ) ≤ value (v.dot v) := by
  have limit : key (Float32.ofBits 0x21800000) ≤ key (minLength * minLength) := by decide +kernel
  obtain ⟨_, _, keys⟩ := lt_iff_key.1 long
  rw [← value_least_square]
  exact value_le_of_key_le rfl finite (by omega)

theorem unpack_sqrt_of_infinity (long : v.dot v > minLength * minLength) {s : Sign}
    (infinite : (v.dot v).toModel.unpack = .infinity s) :
    (v.dot v).sqrt.toModel.unpack = .infinity .positive := by
  have root : (v.dot v).sqrt.toModel.unpack = UnpackedFloat.unpack .binary32
    (UnpackedFloat.pack .binary32 (UnpackedFloat.sqrt .binary32 (v.dot v).toModel.unpack)) := rfl
  obtain ⟨_, _, keys⟩ := lt_iff_key.1 long
  have bounds := key_bounds (minLength * minLength)
  rw [key_infinity infinite] at keys
  rw [root, infinite]
  cases s with
  | positive => rfl
  | negative =>
      rw [Sign.apply] at keys
      omega

/-- No component is so large against the length that their quotient is infinite: one that is above one
is at most the length, and every length is at least `2 ^ -30`. -/
theorem isInf_normalize? (normalized : normalize? v = some d) (axis : Axis) :
    (d.get axis).isInf = false := by
  unfold normalize? at normalized
  obtain ⟨long, same⟩ := Option.ite_none_right_eq_some.1 normalized
  obtain rfl := Option.some.inj same
  rw [Vec3.divide, Vec3.get_map]
  rcases finite_or_infinity (lt_iff.1 long).2.1 with finite | ⟨s, infinite⟩
  · have least := least_of_long long finite
    obtain ⟨numberRoot, _⟩ := key_sqrt finite (lt_of_lt_of_le (by positivity) least)
    rcases finite_or_infinity numberRoot with finiteRoot | ⟨s, infinite⟩
    · have finiteV := (finite_of_mul (square_le_dot finite axis).1).1
      obtain ⟨leastRoot, largeRoot⟩ := length_bounds finite finiteRoot least axis
      have nonzero : value (v.dot v).sqrt ≠ 0 := (lt_of_lt_of_le (by positivity) leastRoot).ne'
      exact isInf_of_rounded (isNaN_div finiteV finiteRoot nonzero) (key_div finiteV finiteRoot nonzero)
        (abs_div_le (abs_value_le finiteV) leastRoot largeRoot)
    · exact isInf_div_infinity infinite
  · exact isInf_div_infinity (unpack_sqrt_of_infinity long infinite)

/-! ## Inverses -/

def Scales (a : Float32) : Prop :=
  a.isNaN = true ∨ ∃ s m e, ∃ positive : 0 < m, a.toModel.unpack = .finite s m e positive

theorem isNaN_div_of_isNaN {a : Float32} (nan : a.isNaN = true) : (x / a).isNaN = true := by
  have quotient (u : UnpackedFloat) : UnpackedFloat.div .binary32 u .notANumber = .notANumber := by
    cases u <;> rfl
  change (UnpackedFloat.unpack .binary32 (UnpackedFloat.pack .binary32
    (UnpackedFloat.div .binary32 x.toModel.unpack a.toModel.unpack))).isNaN = true
  rw [unpack_of_isNaN nan, quotient]
  decide +kernel

theorem finite_of_not_isInf {a : Float32} (number : a.isNaN = false) (bounded : a.isInf = false) :
    a.isFinite = true := by
  rcases finite_or_infinity number with finite | ⟨s, infinite⟩
  · exact finite
  · change a.toModel.unpack.isInf = false at bounded
    rw [infinite] at bounded
    cases bounded

theorem unpack_inverse {a : Float32} (finite : a.isFinite = true) (nonzero : (a == 0) = false)
    (bounded : (1 / a).isInf = false) :
    ∃ s m e, ∃ positive : 0 < m, (1 / a).toModel.unpack = .finite s m e positive := by
  have apart := value_ne_zero finite nonzero
  have number := isNaN_div (x := 1) rfl finite apart
  have place := key_div (x := 1) rfl finite apart
  -- Even the inverse of the largest number is not rounded to zero.
  have least : (2 : ℚ) ^ (-149 : ℤ) ≤ |value 1 / value a| := by
    have greatest := abs_value_le finite
    rw [value_largest] at greatest
    rw [value_one, abs_div, abs_one, le_div_iff₀ (abs_pos.2 apart)]
    calc (2 : ℚ) ^ (-149 : ℤ) * |value a| ≤ 2 ^ (-149 : ℤ) * (0xffffff * 2 ^ (104 : ℤ)) :=
          mul_le_mul_of_nonneg_left greatest (by positivity)
      _ ≤ 1 := by norm_num
  rcases zero_or_finite (finite_of_not_isInf number bounded) with ⟨s, shape⟩ | shape
  · rw [key, shape] at place
    exact absurd place.symm (rounded_ne_zero least)
  · exact shape

theorem isInf_inverse_of_zero {a : Float32} (zero : (a == 0) = true) : (1 / a).isInf = true := by
  obtain ⟨s, shape⟩ := unpack_of_beq_zero zero
  change (UnpackedFloat.unpack .binary32 (UnpackedFloat.pack .binary32
    (UnpackedFloat.div .binary32 (1 : Float32).toModel.unpack a.toModel.unpack))).isInf = true
  rw [shape]
  cases s <;> rfl

theorem scales_boundedInverse {a : Float32} (bounded : a.isInf = false) (nonzero : (a == 0) = false) :
    Scales (boundedInverse a) := by
  unfold boundedInverse
  by_cases infinite : (1 / a).isInf = true
  · right
    rw [if_pos infinite]
    split
    · exact ⟨.negative, 0xffffff, 104, by decide, rfl⟩
    · exact ⟨.positive, 0xffffff, 104, by decide, rfl⟩
  · rw [if_neg infinite]
    cases nan : a.isNaN with
    | true => exact .inl (isNaN_div_of_isNaN nan)
    | false =>
        exact .inr (unpack_inverse (finite_of_not_isInf nan bounded) nonzero
          (Bool.not_eq_true _ ▸ infinite))

end Ray

end BoxTree

import BoxTree.Proofs.Scalar.Sums

/-!
# Quotients and roots

A quotient has the place that the exact quotient is rounded to. A root has the place of a number that is
at least every power of two whose square is at most the number under the root.
-/

namespace BoxTree.Scalar
open Float.Model UnpackedFloat

/-! ## Mantissas cut off -/

theorem represents_below {m : ℕ} {q : ℚ} (lower : m < q) (upper : q < m + 1 / 2) :
    Represents (ExtendedMantissa.ofMantissaAndAccuracy m (.inexact .lt)) q := ⟨lower, upper⟩

theorem represents_half (m : ℕ) :
    Represents (ExtendedMantissa.ofMantissaAndAccuracy m (.inexact .eq)) (m + 1 / 2) := rfl

theorem represents_above {m : ℕ} {q : ℚ} (lower : m + 1 / 2 < q) (upper : q < m + 1) :
    Represents (ExtendedMantissa.ofMantissaAndAccuracy m (.inexact .gt)) q := ⟨lower, upper⟩

theorem exists_represents (m : ℕ) (accuracy : Accuracy) :
    ∃ q : ℚ, Represents (ExtendedMantissa.ofMantissaAndAccuracy m accuracy) q ∧ m ≤ q ∧ q < m + 1 := by
  have quarter : (m : ℚ) < m + 1 / 4 := by linarith
  cases accuracy with
  | exact => exact ⟨m, represents_exact m, le_rfl, lt_add_one _⟩
  | inexact order =>
      cases order with
      | lt => exact ⟨m + 1 / 4, represents_below quarter (by linarith), quarter.le, by linarith⟩
      | eq => exact ⟨m + 1 / 2, represents_half m, by linarith, by linarith⟩
      | gt => exact ⟨m + 3 / 4, represents_above (by linarith) (by linarith), by linarith, by linarith⟩

theorem log_of_floor {m : ℕ} {e : ℤ} {q : ℚ} (positive : 0 < m) (lower : (m : ℚ) ≤ q / 2 ^ e)
    (upper : q / 2 ^ e < m + 1) : Int.log 2 q = m.log2 + e := by
  have unit : (0 : ℚ) < 2 ^ e := by positivity
  rw [le_div_iff₀ unit] at lower
  rw [div_lt_iff₀ unit] at upper
  have large : 0 < q := lt_of_lt_of_le (by positivity) lower
  have below : (m : ℚ) + 1 ≤ 2 ^ (m.log2 + 1) := by exact_mod_cast Nat.lt_log2_self
  apply le_antisymm
  · rw [← Int.lt_add_one_iff, ← Int.lt_zpow_iff_log_lt one_lt_two large]
    have split : (m.log2 : ℤ) + e + 1 = ((m.log2 + 1 : ℕ) : ℤ) + e := by push_cast; ring
    rw [split, Nat.cast_ofNat, zpow_add₀ two_ne_zero, zpow_natCast]
    exact upper.trans_le (mul_le_mul_of_nonneg_right below unit.le)
  · rw [← log_mul_zpow positive]
    exact Int.log_mono_right (by positivity) lower

theorem targetExponent_of_cut {m : ℕ} {e : ℤ} {q : ℚ} (large : 0 < q) (lower : (m : ℚ) ≤ q / 2 ^ e)
    (upper : q / 2 ^ e < m + 1) (enough : e ≤ -149 ∨ 0x800000 ≤ m) :
    Format.binary32.targetExponent (totalExponent m e) = quantum q ∧ e ≤ quantum q := by
  rcases Nat.eq_zero_or_pos m with rfl | positive
  · -- Less than one unit is left, so that the number is below all normal ones.
    have least : e ≤ -149 := enough.resolve_right (by decide)
    have unit : (0 : ℚ) < 2 ^ e := by positivity
    rw [div_lt_iff₀ unit, Nat.cast_zero, zero_add, one_mul] at upper
    have small : Int.log 2 q < e := (Int.lt_zpow_iff_log_lt one_lt_two large).1 upper
    have bits : Nat.log2 0 = 0 := rfl
    simp only [Format.targetExponent, totalExponent, Format.mantissaBits, Format.minExponent, quantum,
      bits]
    norm_num
    omega
  · have exponent := log_of_floor positive lower upper
    have target := targetExponent_eq positive e
    rw [quantum, log_mul_zpow positive, ← exponent, ← quantum.eq_def] at target
    refine ⟨target, ?_⟩
    rw [quantum, exponent]
    rcases enough with least | long
    · omega
    · have : 23 ≤ m.log2 := (Nat.le_log2 positive.ne').2 long
      omega

theorem rank_of_cut (s : Sign) {m : ℕ} {e : ℤ} {accuracy : Accuracy} {q : ℚ} (large : 0 < q)
    (represents : Represents (ExtendedMantissa.ofMantissaAndAccuracy m accuracy) (q / 2 ^ e))
    (enough : e ≤ -149 ∨ 0x800000 ≤ m) :
    Normalized (roundWithAccuracy .binary32 s m e accuracy) ∧
      (roundWithAccuracy .binary32 s m e accuracy).isNaN = false ∧
      clamp (rank (roundWithAccuracy .binary32 s m e accuracy)) = s.apply (rounded q) := by
  have mantissa : (ExtendedMantissa.ofMantissaAndAccuracy m accuracy).mantissa = m := by
    cases accuracy with
    | exact => rfl
    | inexact order => cases order <;> rfl
  obtain ⟨lower, upper⟩ := represents.near
  rw [mantissa] at lower upper
  obtain ⟨target, below⟩ := targetExponent_of_cut large lower upper enough
  obtain ⟨normalized, number, place⟩ :=
    rank_roundWithAccuracy_of_represents s large represents target below
  exact ⟨normalized, number, by rw [place, clamp_apply_place s large]⟩

/-! ## Quotients -/

theorem represents_div (m : ℕ) {n : ℕ} (positive : 0 < n) :
    Represents (ExtendedMantissa.ofMantissaAndAccuracy (m / n) (accuracyOfFraction (m % n) n))
      ((m : ℚ) / n) := by
  have below : (0 : ℚ) < n := by exact_mod_cast positive
  have whole : (m : ℚ) / n = (m / n : ℕ) + (m % n : ℕ) / n := by
    rw [div_eq_iff below.ne', add_mul, div_mul_cancel₀ _ below.ne']
    exact_mod_cast (Nat.div_add_mod' m n).symm
  have rest : ((m % n : ℕ) : ℚ) < n := by exact_mod_cast Nat.mod_lt m positive
  rw [whole, accuracyOfFraction]
  generalize m / n = k at *
  generalize m % n = r at *
  split_ifs with zero
  · rw [zero, Nat.cast_zero, zero_div, add_zero]
    exact represents_exact k
  · have left : (0 : ℚ) < r := by exact_mod_cast Nat.pos_of_ne_zero zero
    have less : (r : ℚ) / n < 1 := (div_lt_one below).2 rest
    rcases lt_trichotomy (2 * r) n with half | half | half
    · rw [compare_lt_iff_lt.2 half]
      have half : (2 * r : ℚ) < n := by exact_mod_cast half
      have : (r : ℚ) / n < 1 / 2 := by rw [div_lt_iff₀ below]; linarith
      exact represents_below (lt_add_of_pos_right _ (by positivity)) (by linarith)
    · rw [compare_eq_iff_eq.2 half]
      have half : (2 * r : ℚ) = n := by exact_mod_cast half
      have : (r : ℚ) / n = 1 / 2 := by rw [div_eq_iff below.ne']; linarith
      rw [this]
      exact represents_half k
    · rw [compare_gt_iff_gt.2 half]
      have half : (n : ℚ) < 2 * r := by exact_mod_cast half
      have : (1 : ℚ) / 2 < r / n := by rw [lt_div_iff₀ below]; linarith
      exact represents_above (by linarith) (by linarith)

theorem enough_divCore {m n : ℕ} {e f : ℤ} (positive : 0 < m) (positive' : 0 < n) :
    (divCore .binary32 m e n f).2.1 ≤ e - f ∧
      ((divCore .binary32 m e n f).2.1 ≤ -149 ∨ 0x800000 ≤ (divCore .binary32 m e n f).1) := by
  have target : (divCore .binary32 m e n f).2.1 =
      min (e - f) (max (m.log2 + e - (n.log2 + f) - 24) (-149)) := by
    simp only [divCore, Format.targetExponent, totalExponent, Format.mantissaBits, Format.minExponent]
    norm_num
    congr 2
    ring
  have quotient : (divCore .binary32 m e n f).1 =
      m <<< (e - f - (divCore .binary32 m e n f).2.1).toNat / n := rfl
  rw [quotient]
  generalize (divCore .binary32 m e n f).2.1 = t at *
  refine ⟨by omega, ?_⟩
  rcases le_or_gt (m.log2 + e - (n.log2 + f) - 24) (-149) with least | long
  · exact .inl (by omega)
  · right
    generalize places : (e - f - t).toNat = k
    rw [Nat.le_div_iff_mul_le positive', Nat.shiftLeft_eq]
    have bits : n.log2 + 1 + 23 ≤ m.log2 + k := by omega
    calc 0x800000 * n ≤ 2 ^ 23 * 2 ^ (n.log2 + 1) := Nat.mul_le_mul_left _ Nat.lt_log2_self.le
      _ = 2 ^ (n.log2 + 1 + 23) := by rw [pow_add 2 (n.log2 + 1), mul_comm]
      _ ≤ 2 ^ (m.log2 + k) := Nat.pow_le_pow_right two_pos bits
      _ = 2 ^ m.log2 * 2 ^ k := pow_add _ _ _
      _ ≤ m * 2 ^ k := Nat.mul_le_mul_right _ (Nat.log2_self_le positive.ne')

theorem div_value (m : ℕ) {n : ℕ} (e f t : ℤ) (le : t ≤ e - f) :
    ((m <<< (e - f - t).toNat : ℕ) : ℚ) / n = m * 2 ^ e / (n * 2 ^ f) / 2 ^ t := by
  have places : ((e - f - t).toNat : ℤ) = e - f - t := Int.toNat_of_nonneg (by omega)
  rw [Nat.shiftLeft_eq, Nat.cast_mul, Nat.cast_pow, Nat.cast_ofNat, ← zpow_natCast, places,
    zpow_sub₀ two_ne_zero, zpow_sub₀ two_ne_zero]
  field_simp

theorem rounded_div (s t : Sign) {m n : ℕ} {e f : ℤ} {positive : 0 < m} {positive' : 0 < n} :
    rounded (exactValue (.finite s m e positive) / exactValue (.finite t n f positive')) =
      (s / t).apply (rounded (m * 2 ^ e / (n * 2 ^ f))) := by
  cases s <;> cases t <;>
    simp only [exactValue, Sign.apply, Int.cast_neg, Int.cast_natCast, neg_mul, neg_div, div_neg,
      rounded_neg]
  · exact neg_neg _
  all_goals rfl

theorem div_finite {u v : UnpackedFloat} (finiteU : u.isFinite = true) (finiteV : v.isFinite = true)
    (nonzero : exactValue v ≠ 0) :
    Normalized (UnpackedFloat.div .binary32 u v) ∧ (UnpackedFloat.div .binary32 u v).isNaN = false ∧
      clamp (rank (UnpackedFloat.div .binary32 u v)) = rounded (exactValue u / exactValue v) := by
  cases v with
  | notANumber => cases finiteV
  | infinity t => cases finiteV
  | zero t => exact absurd (exactValue_zero t) nonzero
  | finite t n f positive' =>
      cases u with
      | notANumber => cases finiteU
      | infinity s => cases finiteU
      | zero s => exact ⟨trivial, rfl, by rw [exactValue_zero, zero_div, rounded_zero]; rfl⟩
      | finite s m e positive =>
          obtain ⟨le, enough⟩ := enough_divCore (e := e) (f := f) positive positive'
          have large : (0 : ℚ) < m * 2 ^ e / (n * 2 ^ f) := by positivity
          have represents := represents_div (m <<< (e - f - (divCore .binary32 m e n f).2.1).toNat) positive'
          rw [div_value m e f _ le] at represents
          obtain ⟨normalized, number, place⟩ := rank_of_cut (s / t) large represents enough
          exact ⟨normalized, number, place.trans (rounded_div s t).symm⟩

variable {x y : Float32}

theorem isNaN_div (finiteX : x.isFinite = true) (finiteY : y.isFinite = true) (nonzero : value y ≠ 0) :
    (x / y).isNaN = false :=
  have ⟨normalized, number, _⟩ := div_finite finiteX finiteY nonzero
  isNaN_unpack_pack normalized number

theorem key_div (finiteX : x.isFinite = true) (finiteY : y.isFinite = true) (nonzero : value y ≠ 0) :
    key (x / y) = rounded (value x / value y) :=
  have ⟨normalized, number, place⟩ := div_finite finiteX finiteY nonzero
  (rank_unpack_pack normalized number).trans place

theorem value_pos (finite : y.isFinite = true) (positive : 0 < y) : 0 < value y := by
  have zero : (0 : Float32).isFinite = true ∧ key 0 = 0 ∧ value 0 = 0 := ⟨rfl, rfl, rfl⟩
  have large := (lt_iff_key.1 positive).2.2
  refine lt_of_le_of_ne (zero.2.2 ▸ value_le_of_key_le zero.1 finite large.le) fun nothing => ?_
  rw [← rounded_eq_key finite, ← nothing, rounded_zero, zero.2.1] at large
  exact lt_irrefl _ large

theorem not_div_neg (finiteX : x.isFinite = true) (nonneg : 0 ≤ value x) (finiteY : y.isFinite = true)
    (positive : 0 < y) : ¬x / y < 0 := by
  have divisor := value_pos finiteY positive
  have zero : key 0 = 0 := rfl
  intro below
  have negative := (lt_iff_key.1 below).2.2
  rw [key_div finiteX finiteY divisor.ne', zero, ← rounded_zero] at negative
  exact negative.not_ge (rounded_mono (div_nonneg nonneg divisor.le))

/-! ## Roots -/

theorem zpow_le_sqrt {n : ℕ} (positive : 0 < n) {k t : ℤ}
    (square : (2 : ℚ) ^ (2 * k) ≤ n * 2 ^ (2 * t)) : (2 : ℚ) ^ k ≤ n.sqrt * 2 ^ t := by
  have unit : (0 : ℚ) < 2 ^ t := by positivity
  rcases le_total k t with low | high
  · have whole : 1 ≤ n.sqrt := Nat.sqrt_pos.2 positive
    calc (2 : ℚ) ^ k ≤ 1 * 2 ^ t := by
          rw [one_mul]
          exact zpow_le_zpow_right₀ one_le_two low
      _ ≤ n.sqrt * 2 ^ t := mul_le_mul_of_nonneg_right (by exact_mod_cast whole) unit.le
  · obtain ⟨i, rfl⟩ := Int.le.dest high
    have scaled : ((2 ^ i) ^ 2 : ℕ) ≤ n := by
      have power : (2 : ℚ) ^ (2 * (t + i)) = (2 ^ i) ^ 2 * 2 ^ (2 * t) := by
        rw [mul_add, zpow_add₀ two_ne_zero, mul_comm, mul_comm 2 (i : ℤ), zpow_mul, zpow_natCast]
        norm_cast
      rw [power] at square
      exact_mod_cast le_of_mul_le_mul_right square (by positivity)
    rw [zpow_add₀ two_ne_zero, mul_comm, zpow_natCast]
    apply mul_le_mul_of_nonneg_right _ unit.le
    exact_mod_cast Nat.le_sqrt'.2 scaled

theorem sqrtCore_bounds {m : ℕ} {e : ℤ} (positive : 0 < m) (least : -149 ≤ e) :
    0x800000 ≤ (sqrtCore .binary32 m e).1 ∧
      ((sqrtCore .binary32 m e).1 * 2 ^ (sqrtCore .binary32 m e).2.1 : ℚ) ^ 2 ≤ m * 2 ^ e ∧
      ∀ k : ℤ, (2 : ℚ) ^ (2 * k) ≤ m * 2 ^ e →
        (2 : ℚ) ^ k ≤ (sqrtCore .binary32 m e).1 * 2 ^ (sqrtCore .binary32 m e).2.1 := by
  have target : (sqrtCore .binary32 m e).2.1 =
      min (e / 2) (max ((m.log2 + 1 + e + 1) / 2 - 24) (-149)) := rfl
  have root : (sqrtCore .binary32 m e).1 =
      (m <<< (e - 2 * (sqrtCore .binary32 m e).2.1).toNat).sqrt := rfl
  rw [root]
  generalize (sqrtCore .binary32 m e).2.1 = t at *
  generalize places : (e - 2 * t).toNat = j
  rw [Nat.shiftLeft_eq]
  have scaled : (m : ℚ) * 2 ^ e = (m * 2 ^ j : ℕ) * 2 ^ (2 * t) := by
    have exponent : e = j + 2 * t := by omega
    rw [exponent, zpow_add₀ two_ne_zero, zpow_natCast, ← mul_assoc]
    norm_cast
  rw [scaled]
  refine ⟨?_, ?_, fun k square => zpow_le_sqrt (by positivity) square⟩
  · have bits : 46 ≤ m.log2 + j := by omega
    rw [Nat.le_sqrt']
    calc 0x800000 ^ 2 = 2 ^ 46 := by norm_num
      _ ≤ 2 ^ (m.log2 + j) := Nat.pow_le_pow_right two_pos bits
      _ = 2 ^ m.log2 * 2 ^ j := pow_add _ _ _
      _ ≤ m * 2 ^ j := Nat.mul_le_mul_right _ (Nat.log2_self_le positive.ne')
  · have cut : ((m * 2 ^ j).sqrt ^ 2 : ℚ) ≤ (m * 2 ^ j : ℕ) := by exact_mod_cast Nat.sqrt_le' (m * 2 ^ j)
    rw [mul_pow, ← zpow_natCast (2 ^ t), ← zpow_mul, mul_comm t]
    exact mul_le_mul_of_nonneg_right cut (by positivity)

theorem unpack_of_pos (finite : x.isFinite = true) (positive : 0 < value x) :
    ∃ m e, ∃ h : 0 < m, x.toModel.unpack = .finite .positive m e h := by
  rw [value] at positive
  rcases zero_or_finite finite with ⟨s, shape⟩ | ⟨s, m, e, h, shape⟩ <;> rw [shape] at positive
  · exact absurd positive (lt_irrefl 0)
  · cases s with
    | positive => exact ⟨m, e, h, shape⟩
    | negative =>
        rw [exactValue, Sign.apply, Int.cast_neg, neg_mul, Left.neg_pos_iff] at positive
        exact absurd positive (not_lt.2 (by positivity))

/-- The root of a positive number lies in the place of some number that is not below any power of two
whose square is not above the number. It is at most twice the exact root. -/
theorem key_sqrt (finite : x.isFinite = true) (positive : 0 < value x) :
    x.sqrt.isNaN = false ∧ ∃ q, key x.sqrt = rounded q ∧ q ^ 2 ≤ 4 * value x ∧
      ∀ k : ℤ, (2 : ℚ) ^ (2 * k) ≤ value x → (2 : ℚ) ^ k ≤ q := by
  obtain ⟨m, e, h, shape⟩ := unpack_of_pos finite positive
  have canonical := canonical_unpack x
  rw [shape] at canonical
  obtain ⟨enough, cut, bound⟩ := sqrtCore_bounds h canonical.2.1
  obtain ⟨r, represents, root, near⟩ :=
    exists_represents (sqrtCore .binary32 m e).1 (sqrtCore .binary32 m e).2.2
  have unit : (0 : ℚ) < 2 ^ (sqrtCore .binary32 m e).2.1 := by positivity
  have leading : (0x800000 : ℚ) ≤ (sqrtCore .binary32 m e).1 := by exact_mod_cast enough
  have large : 0 < r * 2 ^ (sqrtCore .binary32 m e).2.1 := mul_pos (by linarith) unit
  have exact : value x = m * 2 ^ e := by rw [value, shape, exactValue, Sign.apply, Int.cast_natCast]
  rw [← mul_div_cancel_right₀ r unit.ne'] at represents
  obtain ⟨normalized, number, place⟩ := rank_of_cut .positive large represents (.inr enough)
  have model : x.sqrt.toModel.unpack = UnpackedFloat.unpack .binary32 (UnpackedFloat.pack .binary32
      (UnpackedFloat.sqrt .binary32 x.toModel.unpack)) := rfl
  rw [shape] at model
  refine ⟨?_, r * 2 ^ (sqrtCore .binary32 m e).2.1, ?_, ?_, fun k square => ?_⟩
  · change x.sqrt.toModel.unpack.isNaN = false
    rw [model]
    exact isNaN_unpack_pack normalized number
  · rw [key, model]
    exact (rank_unpack_pack normalized number).trans place
  · -- What was cut off is less than the part that was kept.
    have twice : r * 2 ^ (sqrtCore .binary32 m e).2.1 ≤
        2 * ((sqrtCore .binary32 m e).1 * 2 ^ (sqrtCore .binary32 m e).2.1) := by
      rw [← mul_assoc]
      exact mul_le_mul_of_nonneg_right (by linarith) unit.le
    calc (r * 2 ^ (sqrtCore .binary32 m e).2.1) ^ 2
        ≤ (2 * ((sqrtCore .binary32 m e).1 * 2 ^ (sqrtCore .binary32 m e).2.1)) ^ 2 :=
          pow_le_pow_left₀ large.le twice 2
      _ = 4 * ((sqrtCore .binary32 m e).1 * 2 ^ (sqrtCore .binary32 m e).2.1) ^ 2 := by ring
      _ ≤ 4 * value x := by
          rw [exact]
          exact mul_le_mul_of_nonneg_left cut (by norm_num)
  · rw [exact] at square
    exact (bound k square).trans (mul_le_mul_of_nonneg_right root unit.le)

end BoxTree.Scalar

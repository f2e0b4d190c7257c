import BoxTree.Proofs.Scalar.Error

/-!
# Widened distances

A finite distance is moved away unless its slack is lost in rounding, which happens where the slack is no more
than half of the least positive number. Infinite distances stay where they are.
-/

namespace BoxTree.Scalar
open Float.Model UnpackedFloat

variable {x y f : Float32} {a c : ℚ} {s : Sign} {m n : ℕ} {e k : ℤ} {positive : 0 < m} {positive' : 0 < n}

/-! ## Lost slack -/

theorem abs_mul_sub (slack : |c - 1| = 2 ^ (-21 : ℤ)) (nonneg : 0 ≤ a) :
    |a * c - a| = a * 2 ^ (-21 : ℤ) := by
  rw [← mul_sub_one, abs_mul, slack, abs_of_nonneg nonneg]

theorem factor_bounds (slack : |c - 1| = 2 ^ (-21 : ℤ)) : 0 < c ∧ c < 2 := by
  have near := abs_le.1 slack.le
  norm_num at near
  constructor <;> linarith

/-- Numbers whose slack is no more than half of the least positive number have the least exponent, so it is
the mantissa that is small. -/
theorem small_iff (canonical : Canonical (.finite s m e positive)) :
    (m * 2 ^ e : ℚ) ≤ 2 ^ (-129 : ℤ) ↔ m ≤ 0x100000 := by
  obtain ⟨-, least, -, rfl | full⟩ := canonical
  · have split : (2 : ℚ) ^ (-129 : ℤ) = 0x100000 * 2 ^ (-149 : ℤ) := by norm_num
    rw [split, mul_le_mul_iff_left₀ (by positivity)]
    exact_mod_cast Iff.rfl
  · refine iff_of_false (not_le.2 ?_) (by omega)
    calc (2 : ℚ) ^ (-129 : ℤ) < 0x800000 * 2 ^ (-149 : ℤ) := by norm_num
      _ ≤ m * 2 ^ e := by
          gcongr
          · exact_mod_cast full
          · exact one_le_two

/-- The slack of the largest of these mantissas is one half, and the mantissa is even. -/
theorem nearestEven_slack (slack : |c - 1| = 2 ^ (-21 : ℤ)) (few : m ≤ 0x100000) :
    nearestEven (m * c) = m := by
  have moved : |m * c - ((m : ℤ) : ℚ)| = m * 2 ^ (-21 : ℤ) := abs_mul_sub slack m.cast_nonneg
  have most : (m : ℚ) ≤ 0x100000 := by exact_mod_cast few
  apply nearestEven_eq <;> rw [moved]
  · norm_num
    linarith
  · intro tie
    norm_num at tie
    have last : (m : ℚ) = 0x100000 := by linarith
    have : m = 0x100000 := by exact_mod_cast last
    omega

theorem rounded_slack_iff (canonical : Canonical (.finite s m e positive))
    (slack : |c - 1| = 2 ^ (-21 : ℤ)) :
    rounded (m * 2 ^ e * c) = rounded (m * 2 ^ e) ↔ (m * 2 ^ e : ℚ) ≤ 2 ^ (-129 : ℤ) := by
  obtain ⟨above, below⟩ := factor_bounds slack
  have unit : (0 : ℚ) < 2 ^ e := by positivity
  have large : 0 < m * 2 ^ e * c := by positivity
  constructor
  · intro same
    have near := abs_sub_le_of_rounded canonical large same
    rw [abs_mul_sub slack (by positivity), mul_right_comm, mul_le_mul_iff_left₀ unit] at near
    norm_num at near
    have few : (m : ℚ) ≤ 0x100000 := by linarith
    exact (small_iff canonical).2 (by exact_mod_cast few)
  · intro small
    have few := (small_iff canonical).1 small
    obtain rfl : e = -149 := by
      obtain ⟨-, -, -, least | full⟩ := canonical
      · exact least
      · omega
    have less : m * 2 ^ (-149 : ℤ) * c < (2 : ℚ) ^ (-126 : ℤ) :=
      calc m * 2 ^ (-149 : ℤ) * c ≤ 2 ^ (-129 : ℤ) * 2 := mul_le_mul small below.le above.le (by positivity)
        _ < 2 ^ (-126 : ℤ) := by norm_num
    have mantissa : m * 2 ^ (-149 : ℤ) * c / 2 ^ (-149 : ℤ) = m * c := by
      rw [mul_right_comm, mul_div_cancel_right₀ _ unit.ne']
    rw [rounded_of_canonical canonical, rounded_of_pos large, place, if_neg (not_le.2 large),
      quantum_of_small large less, mantissa, nearestEven_slack slack few]
    omega

theorem key_mul_eq_iff (factor : f.toModel.unpack = .finite .positive n k positive')
    (slack : |value f - 1| = 2 ^ (-21 : ℤ)) (finite : x.isFinite = true) :
    key (x * f) = key x ↔ |value x| ≤ 2 ^ (-129 : ℤ) := by
  have canonical := canonical_unpack x
  rw [key_mul finite (isFinite_of_unpack factor), ← rounded_eq_key finite]
  rcases zero_or_finite finite with ⟨s, shape⟩ | ⟨s, m, e, positive, shape⟩
  · rw [value, shape, exactValue_zero, zero_mul, abs_zero]
    exact iff_of_true rfl (by positivity)
  · rw [shape] at canonical
    have size : |value x| = m * 2 ^ e := by
      rw [value_of_unpack shape, abs_mul, abs_of_pos (by positivity : (0 : ℚ) < 2 ^ e)]
      cases s <;> simp [Sign.apply]
    rw [size, ← rounded_slack_iff canonical slack, value_of_unpack shape]
    cases s with
    | positive => rfl
    | negative => simp only [Sign.apply, Int.cast_neg, Int.cast_natCast, neg_mul, rounded_neg, neg_inj]

/-! ## Far distances -/

theorem key_widenFar_eq_iff (finite : x.isFinite = true) :
    key (widenFar x) = key x ↔ |value x| ≤ 2 ^ (-129 : ℤ) := by
  obtain ⟨f, n, k, positive', factor, slack, product⟩ := widenFar_eq_mul x
  rw [product]
  exact key_mul_eq_iff factor slack finite

theorem widenFar_of_isInf (infinite : x.isInf = true) : widenFar x = x := by
  obtain ⟨s, shape⟩ := infinity_of_isInf infinite
  obtain ⟨f, n, k, positive', factor, -, product⟩ := widenFar_eq_mul x
  obtain ⟨number, stays⟩ := key_infinity_mul factor shape
  rw [← product] at number stays
  refine eq_of_key number (isNaN_of_infinity shape) stays ?_
  rw [stays, key_infinity shape]
  cases s <;> simp [Sign.apply]

theorem lt_widenFar_iff : x < widenFar x ↔ x.isFinite = true ∧ 2 ^ (-129 : ℤ) < |value x| := by
  constructor
  · intro less
    obtain ⟨number, _, keys⟩ := lt_iff_key.1 less
    rcases finite_or_infinity number with finite | ⟨s, infinite⟩
    · refine ⟨finite, not_le.1 fun small => ?_⟩
      exact keys.ne' ((key_widenFar_eq_iff finite).2 small)
    · rw [widenFar_of_isInf (congrArg UnpackedFloat.isInf infinite)] at less
      exact absurd less (not_lt_self x)
  · rintro ⟨finite, large⟩
    obtain ⟨number, numberFar, keys⟩ := le_iff_key.1 (le_widenFar (isNaN_of_finite finite))
    refine lt_iff_key.2 ⟨number, numberFar, lt_of_le_of_ne keys fun same => ?_⟩
    exact large.not_ge ((key_widenFar_eq_iff finite).1 same.symm)

/-- Widening keeps the order of distances and brings none nearer. Infinite distances stay, and of the finite
ones just those of size `2 ^ -129` at most, whose slack is lost. Only numbers are in order. -/
theorem widenFar_outward (le : x ≤ y) :
    widenFar x ≤ widenFar y ∧ x ≤ widenFar x ∧ (x.isInf = true → widenFar x = x) ∧
      (x < widenFar x ↔ x.isFinite = true ∧ 2 ^ (-129 : ℤ) < |value x|) := by
  have number := (le_iff.1 le).1
  exact ⟨widenFar_mono le, le_widenFar number, widenFar_of_isInf, lt_widenFar_iff⟩

/-- The largest number moves to infinity. -/
theorem widenFar_outward_ends :
    (negativeInfinity ≤ largest ∧ widenFar negativeInfinity ≤ widenFar largest ∧
      widenFar negativeInfinity = negativeInfinity) ∧
    largest ≤ infinity ∧ widenFar largest ≤ widenFar infinity ∧ largest < widenFar largest := by
  have first : negativeInfinity ≤ largest := by decide +kernel
  have last : largest ≤ infinity := by decide +kernel
  have far : (2 : ℚ) ^ (-129 : ℤ) < |value largest| := by decide +kernel
  obtain ⟨ordered, _, stays, _⟩ := widenFar_outward first
  obtain ⟨ordered', _, _, moves⟩ := widenFar_outward last
  exact ⟨⟨first, ordered, stays rfl⟩, last, ordered', moves.2 ⟨rfl, far⟩⟩

end BoxTree.Scalar

import BoxTree.Proofs.Scalar.Exact

/-!
# Rounding errors

A finite result differs from the exact one by half of the distance to the next number at most. Errors of
several operations add up, in units of the error of one rounding.
-/

namespace BoxTree.Scalar
open Float.Model UnpackedFloat

/-- The most that one rounding changes a number, relative to its size. -/
def unitError : ℚ := 1 / 0x1000000

/-- Half of the least positive number, the most that rounding changes numbers that are too small for
a full mantissa. -/
def leastError : ℚ := 2 ^ (-150 : ℤ)

theorem unitError_nonneg : 0 ≤ unitError := by
  rw [unitError]
  positivity

theorem leastError_nonneg : 0 ≤ leastError := by
  rw [leastError]
  positivity

/-! ## One rounding -/

variable {x y : Float32} {q : ℚ} {s : Sign} {m : ℕ} {e : ℤ} {nonzero : 0 < m}

theorem abs_nearestEven_sub_le (q : ℚ) : |nearestEven q - q| ≤ 1 / 2 := by
  have floor := Int.floor_add_fract q
  have least := Int.fract_nonneg q
  have less := Int.fract_lt_one q
  rw [abs_le]
  unfold nearestEven
  split_ifs with below above
  · constructor <;> linarith
  · push_cast
    constructor <;> linarith
  · have half : Int.fract q = 1 / 2 := le_antisymm (not_lt.1 above) (not_lt.1 below)
    rcases Int.emod_two_eq_zero_or_one ⌊q⌋ with even | odd
    · rw [even]
      push_cast
      constructor <;> linarith
    · rw [odd]
      push_cast
      constructor <;> linarith

theorem abs_nearestEven_mul_sub_le (q : ℚ) (e : ℤ) :
    |nearestEven (q / 2 ^ e) * 2 ^ e - q| ≤ 1 / 2 * 2 ^ e := by
  have unit : (0 : ℚ) < 2 ^ e := by positivity
  have scaled : nearestEven (q / 2 ^ e) * 2 ^ e - q = (nearestEven (q / 2 ^ e) - q / 2 ^ e) * 2 ^ e := by
    rw [sub_mul, div_mul_cancel₀ q unit.ne']
  rw [scaled, abs_mul, abs_of_pos unit]
  exact mul_le_mul_of_nonneg_right (abs_nearestEven_sub_le _) unit.le

theorem nearest_of_rounded (canonical : Canonical (.finite s m e nonzero)) (positive : 0 < q)
    (same : rounded q = rounded (m * 2 ^ e)) :
    (nearestEven (q / 2 ^ quantum q) * 2 ^ quantum q : ℚ) = m * 2 ^ e ∧ quantum q ≤ e := by
  obtain ⟨nonneg, most, leading⟩ := nearestEven_quantum positive
  obtain ⟨least, -, -⟩ := quantum_bounds positive
  rw [rounded_of_canonical canonical, rounded_of_pos positive, place, if_neg (not_le.2 positive)] at same
  obtain ⟨small, low, high, full⟩ := canonical
  generalize nearestEven (q / 2 ^ quantum q) = mantissa at *
  -- The exponent is that of the scalar, or one less for a mantissa that was rounded up to a power of two.
  have parts : quantum q = e ∧ mantissa = m ∨ quantum q + 1 = e ∧ mantissa = m * 2 := by omega
  rcases parts with ⟨rfl, rfl⟩ | ⟨rfl, rfl⟩
  · exact ⟨by rw [Int.cast_natCast], le_rfl⟩
  · refine ⟨?_, by omega⟩
    rw [zpow_add_one₀ two_ne_zero]
    push_cast
    ring

theorem abs_sub_le_of_rounded (canonical : Canonical (.finite s m e nonzero)) (positive : 0 < q)
    (same : rounded q = rounded (m * 2 ^ e)) : |q - m * 2 ^ e| ≤ 1 / 2 * 2 ^ e := by
  obtain ⟨nearest, kept⟩ := nearest_of_rounded canonical positive same
  have half := abs_nearestEven_mul_sub_le q (quantum q)
  rw [nearest, abs_sub_comm] at half
  exact half.trans (mul_le_mul_of_nonneg_left (zpow_le_zpow_right₀ one_le_two kept) (by norm_num))

theorem value_of_place (positive : 0 < q) (finite : x.isFinite = true) (placed : key x = rounded q) :
    value x = nearestEven (q / 2 ^ quantum q) * 2 ^ quantum q := by
  have canonical := canonical_unpack x
  rcases zero_or_finite finite with ⟨s, shape⟩ | ⟨s, m, e, nonzero, shape⟩
  · obtain ⟨nonneg, -, -⟩ := nearestEven_quantum positive
    obtain ⟨least, -, -⟩ := quantum_bounds positive
    rw [key, shape, rank, rounded_of_pos positive, place, if_neg (not_le.2 positive)] at placed
    have none : nearestEven (q / 2 ^ quantum q) = 0 := by omega
    rw [value, shape, exactValue_zero, none, Int.cast_zero, zero_mul]
  · rw [shape] at canonical
    have bounds := rank_bounds canonical
    have nonneg := (place_bounds q).1
    rw [← rounded_of_pos positive] at nonneg
    rw [key, shape] at placed
    cases s with
    | negative => exact absurd nonneg (not_le.2 (placed ▸ bounds.1))
    | positive =>
        have same : rounded q = rounded (m * 2 ^ e) := by
          rw [← placed, rounded_of_canonical canonical, rank, Sign.apply]
        rw [(nearest_of_rounded canonical positive same).1, value_of_unpack shape, Sign.apply,
          Int.cast_natCast]

theorem rounding_error_of_pos (positive : 0 < q) (finite : x.isFinite = true)
    (placed : key x = rounded q) :
    |value x - q| ≤ q * unitError + leastError ∧
      ((∃ n : ℤ, q = n * 2 ^ (-149 : ℤ)) → |value x - q| ≤ q * unitError) := by
  have unit : (0 : ℚ) < 2 ^ quantum q := by positivity
  have half : |value x - q| ≤ 1 / 2 * 2 ^ quantum q := by
    rw [value_of_place positive finite placed]
    exact abs_nearestEven_mul_sub_le q (quantum q)
  have relative : 0 ≤ q * unitError := mul_nonneg positive.le unitError_nonneg
  obtain ⟨-, -, least | full⟩ := quantum_bounds positive
  · constructor
    · have error : 1 / 2 * (2 : ℚ) ^ quantum q = leastError := by
        rw [least, leastError]
        norm_num
      linarith
    · rintro ⟨n, whole⟩
      have integral : q / 2 ^ quantum q = n := by rw [least, whole, mul_div_cancel_right₀ _ (by positivity)]
      rw [value_of_place positive finite placed, integral, nearestEven_intCast, least, ← whole, sub_self,
        abs_zero]
      exact relative
  · have enough : 1 / 2 * (2 : ℚ) ^ quantum q ≤ q * unitError := by
      rw [le_div_iff₀ unit] at full
      rw [unitError]
      linarith
    exact ⟨(half.trans enough).trans (le_add_of_nonneg_right leastError_nonneg),
      fun _ => half.trans enough⟩

theorem rounding_error (finite : x.isFinite = true) (placed : key x = rounded q) :
    |value x - q| ≤ |q| * unitError + leastError ∧
      ((∃ n : ℤ, q = n * 2 ^ (-149 : ℤ)) → |value x - q| ≤ |q| * unitError) := by
  rcases lt_trichotomy q 0 with negative | rfl | positive
  · obtain ⟨number, turned⟩ := neg_number (isNaN_of_finite finite)
    obtain ⟨same, opposite⟩ := value_of_opposite number (isNaN_of_finite finite) turned
    have placed' : key (-x) = rounded (-q) := by rw [turned, placed, rounded_neg]
    obtain ⟨error, exact⟩ :=
      rounding_error_of_pos (neg_pos.2 negative) (same.trans finite) placed'
    rw [opposite, neg_sub_neg, abs_sub_comm] at error exact
    rw [abs_of_neg negative]
    refine ⟨error, fun ⟨n, whole⟩ => exact ⟨-n, ?_⟩⟩
    rw [whole, Int.cast_neg, neg_mul]
  · have zero : value x = value 0 :=
      value_eq_of_key_eq finite rfl (placed.trans (rounded_zero.trans rfl))
    have nothing : value 0 = 0 := rfl
    rw [zero, nothing, sub_self, abs_zero, zero_mul, zero_add]
    exact ⟨leastError_nonneg, fun _ => le_rfl⟩
  · rw [abs_of_pos positive]
    exact rounding_error_of_pos positive finite placed

/-! ## Operations -/

theorem mul_error (finite : (x * y).isFinite = true) (finiteX : x.isFinite = true)
    (finiteY : y.isFinite = true) :
    |value (x * y) - value x * value y| ≤ |value x * value y| * unitError + leastError :=
  (rounding_error finite (key_mul finiteX finiteY)).1

theorem add_error (finite : (x + y).isFinite = true) :
    |value (x + y) - (value x + value y)| ≤ |value x + value y| * unitError := by
  obtain ⟨finiteX, finiteY⟩ := finite_of_add finite
  obtain ⟨m, valueX⟩ := value_eq_mul x
  obtain ⟨n, valueY⟩ := value_eq_mul y
  refine (rounding_error finite (key_add finiteX finiteY)).2 ⟨m + n, ?_⟩
  rw [valueX, valueY, ← add_mul, Int.cast_add]

theorem sub_error (finite : (x - y).isFinite = true) :
    |value (x - y) - (value x - value y)| ≤ |value x - value y| * unitError := by
  obtain ⟨finiteX, finiteY⟩ := finite_of_sub finite
  obtain ⟨m, valueX⟩ := value_eq_mul x
  obtain ⟨n, valueY⟩ := value_eq_mul y
  refine (rounding_error finite (sub_finite finiteX finiteY).2).2 ⟨m - n, ?_⟩
  rw [valueX, valueY, ← sub_mul, Int.cast_sub]

/-! ## Several roundings -/

/-- A number and its exact value, which is at most `m` in size. They differ by at most `k` roundings of
numbers of this size, and by `d` besides. -/
structure Near (x a m : ℚ) (k : ℕ) (d : ℚ) : Prop where
  size : |a| ≤ m
  error : |x - a| ≤ k * unitError * m + d
  nonneg : 0 ≤ d

namespace Near

variable {x y a b m n d e : ℚ} {k l : ℕ}

theorem exact (a : ℚ) : Near a a |a| 0 0 where
  size := le_rfl
  error := by simp
  nonneg := le_rfl

theorem size_nonneg (near : Near x a m k d) : 0 ≤ m := (abs_nonneg a).trans near.size

theorem abs_le (near : Near x a m k d) : |x| ≤ m + (k * unitError * m + d) :=
  calc |x| = |a + (x - a)| := by rw [add_sub_cancel]
    _ ≤ |a| + |x - a| := abs_add_le _ _
    _ ≤ m + (k * unitError * m + d) := add_le_add near.size near.error

theorem weaken (near : Near x a m k d) (le : k ≤ l) : Near x a m l d := by
  have units : (k : ℚ) * unitError * m ≤ l * unitError * m := by
    have := near.size_nonneg
    have := unitError_nonneg
    gcongr
  exact ⟨near.size, near.error.trans (by linarith), near.nonneg⟩

theorem neg (near : Near x a m k d) : Near (-x) (-a) m k d where
  size := by rw [abs_neg]; exact near.size
  error := by rw [neg_sub_neg, abs_sub_comm]; exact near.error
  nonneg := near.nonneg

theorem add (first : Near x a m k d) (second : Near y b n k e) :
    Near (x + y) (a + b) (m + n) k (d + e) where
  size := (abs_add_le a b).trans (add_le_add first.size second.size)
  error := by
    rw [add_sub_add_comm]
    have sum := (abs_add_le (x - a) (y - b)).trans (add_le_add first.error second.error)
    linarith
  nonneg := add_nonneg first.nonneg second.nonneg

theorem sub (first : Near x a m k d) (second : Near y b n k e) :
    Near (x - y) (a - b) (m + n) k (d + e) := by
  rw [sub_eq_add_neg, sub_eq_add_neg]
  exact first.add second.neg

theorem mul (first : Near x a m k 0) (second : Near y b n l e) (few : k ≤ 0x1000000)
    (few' : k * l ≤ 0x1000000) : Near (x * y) (a * b) (m * n) (k + l + 1) (2 * m * e) := by
  have sizeM := first.size_nonneg
  have sizeN := second.size_nonneg
  have nonneg := second.nonneg
  have once : (k : ℚ) * unitError ≤ 1 := by
    have : (k : ℚ) ≤ 0x1000000 := by exact_mod_cast few
    rw [unitError]
    linarith
  have twice : (k : ℚ) * unitError * (l * unitError) ≤ unitError := by
    have : (k : ℚ) * l ≤ 0x1000000 := by exact_mod_cast few'
    have : (k : ℚ) * l * unitError ≤ 1 := by
      rw [unitError]
      linarith
    nlinarith [unitError_nonneg]
  refine ⟨?_, ?_, by positivity⟩
  · rw [abs_mul]
    exact mul_le_mul first.size second.size (abs_nonneg b) sizeM
  · have split : x * y - a * b = (x - a) * y + a * (y - b) := by ring
    calc |x * y - a * b| ≤ |x - a| * |y| + |a| * |y - b| := by
          rw [split, ← abs_mul, ← abs_mul]
          exact abs_add_le _ _
      _ ≤ k * unitError * m * (n + (l * unitError * n + e)) + m * (l * unitError * n + e) := by
          have left := mul_le_mul first.error second.abs_le (abs_nonneg y)
            (by have := unitError_nonneg; positivity)
          have right := mul_le_mul first.size second.error (abs_nonneg _) sizeM
          rw [add_zero] at left
          exact add_le_add left right
      _ = (k + l) * unitError * (m * n) + k * unitError * (l * unitError) * (m * n) +
            (k * unitError) * (m * e) + m * e := by ring
      _ ≤ (k + l) * unitError * (m * n) + unitError * (m * n) + 1 * (m * e) + m * e := by gcongr
      _ = ((k + l + 1 : ℕ) : ℚ) * unitError * (m * n) + 2 * m * e := by
          push_cast
          ring

theorem round (near : Near x a m k d) (few : k ≤ 0x1000000) (nonneg : 0 ≤ e)
    (rounded : |y - x| ≤ |x| * unitError + e) : Near y a m (k + 2) (2 * d + e) := by
  have sizeM := near.size_nonneg
  have unit := unitError_nonneg
  have slack := near.nonneg
  have small : unitError ≤ 1 := by
    rw [unitError]
    norm_num
  have once : (k : ℚ) * unitError ≤ 1 := by
    have : (k : ℚ) ≤ 0x1000000 := by exact_mod_cast few
    rw [unitError]
    linarith
  refine ⟨near.size, ?_, by positivity⟩
  have split : y - a = (y - x) + (x - a) := by ring
  calc |y - a| ≤ |y - x| + |x - a| := by
        rw [split]
        exact abs_add_le _ _
    _ ≤ (|x| * unitError + e) + (k * unitError * m + d) := add_le_add rounded near.error
    _ ≤ ((m + (k * unitError * m + d)) * unitError + e) + (k * unitError * m + d) := by
        gcongr
        exact near.abs_le
    _ = (k + 1) * unitError * m + k * unitError * (unitError * m) + d * unitError + e + d := by ring
    _ ≤ (k + 1) * unitError * m + 1 * (unitError * m) + d * 1 + e + d := by gcongr
    _ = ((k + 2 : ℕ) : ℚ) * unitError * m + (2 * d + e) := by
        push_cast
        ring

end Near

end BoxTree.Scalar

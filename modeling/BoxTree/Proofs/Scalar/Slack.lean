import BoxTree.Proofs.Scalar.Arithmetic

/-!
# Slack

Moving a far distance away keeps the order of distances and never brings one nearer.
-/

namespace BoxTree.Scalar
open Float.Model UnpackedFloat

/-! ## Factors -/

variable {x y c : Float32} {m : Nat} {e : ℤ} {positive : 0 < m}

theorem value_factor (factor : c.toModel.unpack = .finite .positive m e positive) :
    c.isFinite = true ∧ 0 < value c := by
  refine ⟨isFinite_of_unpack factor, ?_⟩
  rw [value_of_unpack factor, Sign.apply, Int.cast_natCast]
  positivity

theorem key_infinity {s : Sign} (infinite : x.toModel.unpack = .infinity s) :
    key x = s.apply 0x7f800000 := by
  rw [key, infinite, rank]

theorem key_infinity_mul {s : Sign} (factor : c.toModel.unpack = .finite .positive m e positive)
    (infinite : x.toModel.unpack = .infinity s) : (x * c).isNaN = false ∧ key (x * c) = key x := by
  have product := infinity_mul infinite factor
  refine ⟨isNaN_of_infinity product, ?_⟩
  rw [key, key, product, infinite]
  cases s <;> rfl

theorem isNaN_mul_factor {s : Sign} (factor : c.toModel.unpack = .finite s m e positive)
    (number : x.isNaN = false) : (x * c).isNaN = false := by
  rcases finite_or_infinity number with finite | ⟨t, infinite⟩
  · exact isNaN_mul finite (isFinite_of_unpack factor)
  · exact isNaN_of_infinity (infinity_mul infinite factor)

/-- A function of scalars that rounds an increasing function of their values, and that leaves the
infinities where they are. -/
structure Rounds (f : Float32 → Float32) (g : ℚ → ℚ) : Prop where
  mono : Monotone g
  number : ∀ x, x.isNaN = false → (f x).isNaN = false
  finite : ∀ x, x.isFinite = true → key (f x) = rounded (g (value x))
  infinite : ∀ x s, x.toModel.unpack = .infinity s → key (f x) = s.apply 0x7f800000

theorem Rounds.le {f : Float32 → Float32} {g : ℚ → ℚ} (rounds : Rounds f g) (le : x ≤ y) :
    f x ≤ f y := by
  obtain ⟨numberX, numberY, keys⟩ := le_iff_key.1 le
  refine le_iff_key.2 ⟨rounds.number x numberX, rounds.number y numberY, ?_⟩
  rcases finite_or_infinity numberX with finiteX | ⟨s, infiniteX⟩
  · rcases finite_or_infinity numberY with finiteY | ⟨t, infiniteY⟩
    · rw [rounds.finite x finiteX, rounds.finite y finiteY]
      exact rounded_mono (rounds.mono (value_le_of_key_le finiteX finiteY keys))
    · rw [rounds.infinite y t infiniteY]
      have := key_bounds (f x)
      have := key_lt_of_finite finiteX
      rw [key_infinity infiniteY] at keys
      cases t <;> simp only [Sign.apply] at keys ⊢ <;> omega
  · rw [rounds.infinite x s infiniteX]
    have := key_bounds (f y)
    rw [key_infinity infiniteX] at keys
    rcases finite_or_infinity numberY with finiteY | ⟨t, infiniteY⟩
    · have := key_lt_of_finite finiteY
      cases s <;> simp only [Sign.apply] at keys ⊢ <;> omega
    · rw [rounds.infinite y t infiniteY, ← key_infinity infiniteY]
      exact keys

theorem rounds_mul (factor : c.toModel.unpack = .finite .positive m e positive) :
    Rounds (· * c) (· * value c) where
  mono := fun _ _ le => mul_le_mul_of_nonneg_right le (value_factor factor).2.le
  number := fun _ number => isNaN_mul_factor factor number
  finite := fun _ finite => key_mul finite (value_factor factor).1
  infinite := fun _ _ infinite => (key_infinity_mul factor infinite).2.trans (key_infinity infinite)

theorem mul_le_mul_of_pos (factor : c.toModel.unpack = .finite .positive m e positive) (le : x ≤ y) :
    x * c ≤ y * c :=
  (rounds_mul factor).le le

theorem rounds_neg_mul (factor : c.toModel.unpack = .finite .negative m e positive) :
    Rounds (fun x => -(x * c)) (· * -value c) where
  mono := by
    have below : value c ≤ 0 := by
      rw [value_of_unpack factor, Sign.apply, Int.cast_neg, neg_mul, neg_nonpos]
      positivity
    exact fun _ _ le => mul_le_mul_of_nonneg_right le (neg_nonneg.2 below)
  number := fun _ number => (neg_number (isNaN_mul_factor factor number)).1
  finite := by
    intro x finite
    have finiteC := isFinite_of_unpack factor
    rw [(neg_number (isNaN_mul finite finiteC)).2, key_mul finite finiteC, mul_neg, rounded_neg]
  infinite := by
    intro x s infinite
    have number := isNaN_mul_factor factor (isNaN_of_infinity infinite)
    rw [(neg_number number).2, key_infinity (infinity_mul infinite factor)]
    cases s <;> rfl

theorem mul_le_mul_of_neg (factor : c.toModel.unpack = .finite .negative m e positive) (le : x ≤ y) :
    y * c ≤ x * c := by
  obtain ⟨numberX, numberY, _⟩ := le_iff_key.1 le
  have productX := isNaN_mul_factor factor numberX
  have productY := isNaN_mul_factor factor numberY
  have turned := (le_iff_key.1 ((rounds_neg_mul factor).le le)).2.2
  rw [(neg_number productX).2, (neg_number productY).2] at turned
  exact le_iff_key.2 ⟨productY, productX, neg_le_neg_iff.1 turned⟩

theorem key_le_key_mul (factor : c.toModel.unpack = .finite .positive m e positive)
    (number : x.isNaN = false)
    (grows : 0 ≤ key x ∧ 1 ≤ value c ∨ key x ≤ 0 ∧ value c ≤ 1) : key x ≤ key (x * c) := by
  rcases finite_or_infinity number with finite | ⟨s, infinite⟩
  · have zero : (0 : Float32).isFinite = true := rfl
    have nothing : key 0 = 0 ∧ value 0 = 0 := ⟨rfl, rfl⟩
    rw [key_mul finite (value_factor factor).1, ← rounded_eq_key finite]
    apply rounded_mono
    rcases grows with ⟨sign, large⟩ | ⟨sign, small⟩
    · have sign := value_le_of_key_le zero finite (nothing.1 ▸ sign)
      nlinarith [nothing.2]
    · have sign := value_le_of_key_le finite zero (nothing.1 ▸ sign)
      nlinarith [nothing.2]
  · exact (key_infinity_mul factor infinite).2.ge

/-! ## Far distances -/

theorem unpack_grow :
    (1 + farSlack).toModel.unpack = .finite .positive 0x800004 (-23) (by decide) := rfl

theorem unpack_shrink :
    (1 - farSlack).toModel.unpack = .finite .positive 0xfffff8 (-24) (by decide) := rfl

theorem value_grow : value (1 + farSlack) = 1 + 2 ^ (-21 : ℤ) := by
  rw [value_of_unpack unpack_grow, Sign.apply]
  norm_num

theorem value_shrink : value (1 - farSlack) = 1 - 2 ^ (-21 : ℤ) := by
  rw [value_of_unpack unpack_shrink, Sign.apply]
  norm_num

theorem pos_iff_key {t : Float32} (number : t.isNaN = false) : t > 0 ↔ 0 < key t := by
  have zero : (0 : Float32).isNaN = false ∧ key 0 = 0 := ⟨rfl, rfl⟩
  rw [gt_iff_lt, lt_iff_key, zero.2]
  simp only [zero.1, number, true_and]

theorem widenFar_eq_mul (t : Float32) :
    ∃ f m e, ∃ positive : 0 < m, f.toModel.unpack = .finite .positive m e positive ∧
      |value f - 1| = 2 ^ (-21 : ℤ) ∧ widenFar t = t * f := by
  unfold widenFar
  split
  · exact ⟨_, _, _, by decide, unpack_grow, by rw [value_grow]; norm_num, rfl⟩
  · exact ⟨_, _, _, by decide, unpack_shrink, by rw [value_shrink]; norm_num, rfl⟩

theorem isNaN_widenFar {t : Float32} (number : t.isNaN = false) : (widenFar t).isNaN = false := by
  obtain ⟨f, m, e, positive, factor, -, product⟩ := widenFar_eq_mul t
  rw [product]
  exact isNaN_mul_factor factor number

theorem le_widenFar {t : Float32} (number : t.isNaN = false) : t ≤ widenFar t := by
  refine le_iff_key.2 ⟨number, isNaN_widenFar number, ?_⟩
  unfold widenFar
  by_cases sign : t > 0
  · have above : 1 ≤ value (1 + farSlack) := by
      rw [value_grow]
      norm_num
    rw [if_pos sign]
    exact key_le_key_mul unpack_grow number (.inl ⟨((pos_iff_key number).1 sign).le, above⟩)
  · have below : value (1 - farSlack) ≤ 1 := by
      rw [value_shrink]
      norm_num
    rw [if_neg sign]
    rw [pos_iff_key number, not_lt] at sign
    exact key_le_key_mul unpack_shrink number (.inr ⟨sign, below⟩)

theorem widenFar_mono {s t : Float32} (le : s ≤ t) : widenFar s ≤ widenFar t := by
  obtain ⟨numberS, numberT, keys⟩ := le_iff_key.1 le
  by_cases signS : s > 0
  · have signT : t > 0 := by
      rw [pos_iff_key numberS] at signS
      rw [pos_iff_key numberT]
      omega
    rw [widenFar, widenFar, if_pos signS, if_pos signT]
    exact mul_le_mul_of_pos unpack_grow le
  · by_cases signT : t > 0
    · -- Zero lies between both.
      have zero : (0 : Float32).isNaN = false ∧ key 0 = 0 := ⟨rfl, rfl⟩
      rw [pos_iff_key numberS, not_lt] at signS
      have below : s ≤ 0 := le_iff_key.2 ⟨numberS, zero.1, zero.2 ▸ signS⟩
      have shrunk := (le_iff_key.1 (mul_le_mul_of_pos unpack_shrink below)).2.2
      have fixed : key (0 * (1 - farSlack)) = 0 := rfl
      have above := (le_iff_key.1 (le_widenFar numberT)).2.2
      have smaller : widenFar s = s * (1 - farSlack) := by
        rw [widenFar, if_neg (by rw [pos_iff_key numberS]; omega)]
      refine le_iff_key.2 ⟨isNaN_widenFar numberS, isNaN_widenFar numberT, ?_⟩
      rw [pos_iff_key numberT] at signT
      rw [smaller]
      omega
    · rw [widenFar, widenFar, if_neg signS, if_neg signT]
      exact mul_le_mul_of_pos unpack_shrink le

end BoxTree.Scalar

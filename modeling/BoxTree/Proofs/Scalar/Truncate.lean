import BoxTree.Proofs.Scalar.Quotients
import BoxTree.Proofs.Scalar.Void

/-!
# Counts and integer parts

The conversions between scalars and counts keep the order. What is negative, or not a number, has no integer
part, and what is too large for one has the greatest.
-/

namespace BoxTree.Scalar
open Float.Model UnpackedFloat

variable {x y c : Float32} {s : Sign}

/-! ## Counts -/

theorem rounded_two_pow : rounded (2 ^ 64) = 0x5f800000 := by
  have canonical : Canonical (.finite .positive 0x800000 41 (by decide)) := by
    exact ⟨by decide, by decide, by decide, .inr (by decide)⟩
  have power : (2 : ℚ) ^ 64 = (0x800000 : ℕ) * 2 ^ (41 : ℤ) := by norm_num
  rw [power, rounded_of_canonical canonical]
  rfl

theorem key_ofCount (count : ℕ) :
    (ofCount count).isNaN = false ∧ key (ofCount count) = rounded (count.toUInt64.toNat : ℤ) := by
  obtain ⟨normalized, number, place⟩ := rank_normalize count.toUInt64.toNat 0 .positive
  rw [zpow_zero, mul_one] at place
  exact ⟨isNaN_unpack_pack normalized number, (rank_unpack_pack normalized number).trans place⟩

theorem ofCount_finite (count : ℕ) : (ofCount count).isFinite = true ∧ 0 ≤ value (ofCount count) := by
  obtain ⟨number, place⟩ := key_ofCount count
  have few : ((count.toUInt64.toNat : ℤ) : ℚ) ≤ 2 ^ 64 := by
    exact_mod_cast count.toUInt64.toNat_lt.le
  have lower : 0 ≤ key (ofCount count) := by
    rw [place, ← rounded_zero]
    exact rounded_mono (by positivity)
  have upper : key (ofCount count) ≤ 0x5f800000 := by
    rw [place, ← rounded_two_pow]
    exact rounded_mono few
  have finite := finite_of_key number (by omega) (by omega)
  have zero : key 0 = 0 ∧ value 0 = 0 := ⟨rfl, rfl⟩
  refine ⟨finite, ?_⟩
  rw [← zero.2]
  exact value_le_of_key_le rfl finite (zero.1.trans_le lower)

/-! ## Integer parts -/

def greatest : ℕ := 2 ^ 64 - 1

theorem shiftToExponent_mantissa (m : ℕ) (e : ℤ) :
    ((shiftToExponent (decreaseExponent m e 0).1 (decreaseExponent m e 0).2 .exact 0).1.mantissa : ℤ) =
      ⌊(m : ℚ) * 2 ^ e⌋ := by
  have whole := decreaseExponent_value m e 0
  have exponent := snd_decreaseExponent m e 0
  have places : min e 0 = -((0 - min e 0).toNat : ℤ) := by omega
  have represents := (represents_exact (decreaseExponent m e 0).1).shiftRight (0 - min e 0).toNat
  have same : ((decreaseExponent m e 0).1 : ℚ) / 2 ^ (0 - min e 0).toNat = m * 2 ^ e := by
    rw [← whole, div_eq_mul_inv, ← zpow_natCast, ← zpow_neg, ← places]
  rw [same] at represents
  obtain ⟨lower, upper⟩ := represents.near
  rw [exponent]
  exact (Int.floor_eq_iff.2 ⟨by exact_mod_cast lower, by exact_mod_cast upper⟩).symm

theorem toNat_ofNatClamp (k : ℕ) : (UInt64.ofNatClamp k).toNat = min k greatest := by
  unfold UInt64.ofNatClamp
  split
  · next small =>
      rw [UInt64.toNat_ofNatLT]
      exact (Nat.min_eq_left (Nat.le_pred_of_lt small)).symm
  · next large => exact (Nat.min_eq_right ((Nat.pred_le _).trans (not_lt.1 large))).symm

theorem truncate_eq (x : Float32) :
    truncate x = min (x.toModel.unpack.toInt 0 greatest).toNat greatest :=
  toNat_ofNatClamp _

theorem truncate_of_finite (finite : x.isFinite = true) :
    truncate x = min ⌊value x⌋.toNat greatest := by
  rw [truncate_eq]
  congr 1
  rcases zero_or_finite finite with ⟨s, shape⟩ | ⟨s, m, e, positive, shape⟩
  · rw [value, shape, exactValue_zero, Int.floor_zero]
    rfl
  · have part := shiftToExponent_mantissa m e
    rw [value, shape]
    simp only [toInt, roundToInt, exactValue]
    have nonneg : (0 : ℚ) ≤ m * 2 ^ e := by positivity
    cases s with
    | positive => simp only [Sign.apply, part, Int.cast_natCast]
    | negative =>
        -- Negative numbers have a negative floor and an integer part of zero, or both are zero.
        have below : ⌊((Sign.negative.apply m : ℤ) : ℚ) * 2 ^ e⌋ ≤ 0 := by
          rw [Sign.apply, Int.cast_neg, neg_mul, Int.cast_natCast]
          exact (Int.floor_le_floor (neg_nonpos.2 nonneg)).trans_eq Int.floor_zero
        rw [Int.toNat_of_nonpos below, Int.toNat_of_nonpos]
        simp only [Sign.apply]
        omega

theorem truncate_le (x : Float32) : truncate x ≤ greatest := by
  rw [truncate_eq]
  exact min_le_right _ _

theorem truncate_of_infinity (infinite : x.toModel.unpack = .infinity s) :
    truncate x = (s.apply greatest : ℤ).toNat := by
  cases s <;> simp [truncate_eq, infinite, toInt, Sign.apply]

theorem truncate_of_void (void : Void x) : truncate x = 0 := by
  rw [truncate_eq]
  rcases void_iff_unpack.1 void with shape | ⟨s, shape⟩ <;> rw [shape] <;> rfl

theorem truncate_mono (le : x ≤ y) : truncate x ≤ truncate y := by
  obtain ⟨numberX, numberY, keys⟩ := le_iff_key.1 le
  rcases finite_or_infinity numberX with finiteX | ⟨s, infiniteX⟩
  · rcases finite_or_infinity numberY with finiteY | ⟨t, infiniteY⟩
    · rw [truncate_of_finite finiteX, truncate_of_finite finiteY]
      exact min_le_min_right _
        (Int.toNat_le_toNat (Int.floor_le_floor (value_le_of_key_le finiteX finiteY keys)))
    · cases t with
      | positive =>
          rw [truncate_of_infinity infiniteY]
          exact truncate_le x
      | negative =>
          have above := key_lt_of_finite finiteX
          rw [key_infinity infiniteY] at keys
          simp only [Sign.apply] at keys
          omega
  · cases s with
    | negative =>
        rw [truncate_of_infinity infiniteX, Sign.apply, Int.toNat_neg_natCast]
        exact Nat.zero_le _
    | positive =>
        rcases finite_or_infinity numberY with finiteY | ⟨t, infiniteY⟩
        · have below := key_lt_of_finite finiteY
          rw [key_infinity infiniteX] at keys
          simp only [Sign.apply] at keys
          omega
        · rw [key_infinity infiniteX, key_infinity infiniteY] at keys
          cases t with
          | positive => rw [truncate_of_infinity infiniteX, truncate_of_infinity infiniteY]
          | negative => simp only [Sign.apply] at keys; omega

/-! ## Scaled numbers -/

theorem mul_infinity (shape : x.toModel.unpack = .infinity s ∨
      ∃ m e, ∃ positive : 0 < m, x.toModel.unpack = .finite s m e positive)
    (infinite : c.toModel.unpack = .infinity .positive) : (x * c).toModel.unpack = .infinity s := by
  have product : UnpackedFloat.mul .binary32 x.toModel.unpack c.toModel.unpack = .infinity s := by
    rw [infinite]
    rcases shape with shape | ⟨m, e, positive, shape⟩ <;> rw [shape] <;> cases s <;> rfl
  change UnpackedFloat.unpack .binary32 (UnpackedFloat.pack .binary32
    (UnpackedFloat.mul .binary32 x.toModel.unpack c.toModel.unpack)) = _
  rw [product]
  cases s <;> rfl

theorem truncate_mul_infinity (x : Float32) (infinite : c.toModel.unpack = .infinity .positive) :
    truncate (x * c) = if 0 < key x then greatest else 0 := by
  have canonical := canonical_unpack x
  cases shape : x.toModel.unpack with
  | notANumber =>
      rw [truncate_of_void ((void_iff_unpack.2 (.inl shape)).mul c), key, shape, rank, if_neg (lt_irrefl 0)]
  | zero s =>
      rw [truncate_of_void ((void_iff_unpack.2 (.inr ⟨s, shape⟩)).mul c), key, shape, rank,
        if_neg (lt_irrefl 0)]
  | infinity s =>
      rw [truncate_of_infinity (mul_infinity (.inl shape) infinite), key_infinity shape]
      cases s <;> simp [Sign.apply]
  | finite s m e positive =>
      rw [truncate_of_infinity (mul_infinity (.inr ⟨m, e, positive, shape⟩) infinite), key, shape]
      rw [shape] at canonical
      have bounds := rank_bounds canonical
      cases s with
      | positive => rw [if_pos bounds.1, Sign.apply, Int.toNat_natCast]
      | negative => rw [if_neg bounds.1.le.not_gt, Sign.apply, Int.toNat_neg_natCast]

theorem truncate_mul_mono (notNegative : ¬c < 0) (le : x ≤ y) : truncate (x * c) ≤ truncate (y * c) := by
  have zero : (0 : Float32).isNaN = false ∧ key 0 = 0 := ⟨rfl, rfl⟩
  have canonical := canonical_unpack c
  have sign (number : c.isNaN = false) : 0 ≤ key c := not_lt.1 fun below =>
    notNegative (lt_iff_key.2 ⟨number, zero.1, zero.2 ▸ below⟩)
  cases shape : c.toModel.unpack with
  | notANumber =>
      rw [truncate_of_void ((void_iff_unpack.2 (.inl shape)).mul_right x)]
      exact Nat.zero_le _
  | zero s =>
      rw [truncate_of_void ((void_iff_unpack.2 (.inr ⟨s, shape⟩)).mul_right x)]
      exact Nat.zero_le _
  | infinity s =>
      cases s with
      | positive =>
          have keys := (le_iff_key.1 le).2.2
          rw [truncate_mul_infinity x shape, truncate_mul_infinity y shape]
          split_ifs
          · exact le_rfl
          · omega
          · exact Nat.zero_le _
          · exact le_rfl
      | negative =>
          have above := sign (isNaN_of_infinity shape)
          rw [key_infinity shape, Sign.apply] at above
          omega
  | finite s m e positive =>
      cases s with
      | positive => exact truncate_mono (mul_le_mul_of_pos shape le)
      | negative =>
          have above := sign (isNaN_of_finite (isFinite_of_unpack shape))
          rw [shape] at canonical
          rw [key, shape] at above
          exact absurd (rank_bounds canonical).1 above.not_gt

end BoxTree.Scalar

import BoxTree.Proofs.Scalar.Quotients

/-!
# Signs

Every number has a sign, also the zeros and the infinities. The sign of a quotient follows from those of the
dividend and the divisor, whatever was rounded.
-/

namespace BoxTree.Scalar
open Float.Model UnpackedFloat

variable {x y : Float32} {u v : UnpackedFloat}

/-! ## Sign bits -/

theorem isNegative_iff (x : Float32) : isNegative x = true ↔ 0x80000000 ≤ x.toBits.toNat := by
  have bound : x.toBits.toNat < 0x100000000 := x.toBits.toNat_lt
  rw [isNegative, beq_iff_eq, ← UInt32.toNat_inj, UInt32.toNat_shiftRight]
  change x.toBits.toNat >>> 31 = 1 ↔ _
  rw [Nat.shiftRight_eq_div_pow]
  omega

def signOf : UnpackedFloat → Sign
  | .infinity s => s
  | .zero s => s
  | .finite s _ _ _ => s
  | .notANumber => .positive

theorem signOf_unpack {b : BitVec Format.binary32.numBits}
    (number : (UnpackedFloat.unpack .binary32 b).isNaN = false) :
    signOf (UnpackedFloat.unpack .binary32 b) = .negative ↔ 0x80000000 ≤ b.toNat := by
  have field : signOf (UnpackedFloat.unpack .binary32 b) = Sign.ofBitVec (unpackSign b) := by
    revert number
    simp only [UnpackedFloat.unpack]
    split_ifs <;> intro number <;> first | rfl | cases number
  rw [field, ofBitVec_unpackSign]
  split <;> simp only [reduceCtorEq, false_iff, true_iff] <;> omega

theorem isNegative_iff_signOf (number : x.isNaN = false) :
    isNegative x = true ↔ signOf x.toModel.unpack = .negative := by
  change x.toModel.unpack.isNaN = false at number
  rw [isNegative_iff]
  exact (signOf_unpack number).symm

theorem isNegative_of_finite {s : Sign} {m : ℕ} {e : ℤ} {positive : 0 < m}
    (shape : x.toModel.unpack = .finite s m e positive) : isNegative x = true ↔ s = .negative := by
  rw [isNegative_iff_signOf (isNaN_of_finite (isFinite_of_unpack shape)), shape, signOf]

theorem isNegative_of_pos (finite : x.isFinite = true) (positive : 0 < value x) : isNegative x = false := by
  obtain ⟨m, e, h, shape⟩ := unpack_of_pos finite positive
  rw [Bool.eq_false_iff, ne_eq, isNegative_of_finite shape]
  exact nofun

/-! ## Quotients -/

theorem signOf_pack (number : u.isNaN = false) :
    0x80000000 ≤ (UnpackedFloat.pack .binary32 u).toNat ↔ signOf u = .negative := by
  have components (s : Sign) (e : BitVec 8) (m : BitVec 23) :
      0x80000000 ≤ (packComponents .binary32 s e m).toNat ↔ s = .negative := by
    have := e.isLt
    have := m.isLt
    have positive : Sign.positive.toBitVec.toNat = 0 := rfl
    have negative : Sign.negative.toBitVec.toNat = 1 := rfl
    rw [toNat_packComponents]
    cases s <;> simp only [positive, negative, reduceCtorEq, iff_false, iff_true] <;> omega
  cases u with
  | notANumber => cases number
  | infinity s => exact components s _ _
  | zero s => exact components s _ _
  | finite s m e positive =>
      rw [UnpackedFloat.pack]
      split_ifs <;> exact components s _ _

theorem signOf_div (number : (UnpackedFloat.div .binary32 u v).isNaN = false) :
    signOf (UnpackedFloat.div .binary32 u v) = signOf u / signOf v := by
  have rounded (s : Sign) (m : ℕ) (e : ℤ) (accuracy : Accuracy) :
      signOf (roundWithAccuracy .binary32 s m e accuracy) = s := by
    simp only [roundWithAccuracy]
    split_ifs <;> rfl
  cases u <;> cases v <;> first | rfl | cases number | exact rounded _ _ _ _

theorem div_eq_negative (s t : Sign) : s / t = .negative ↔ ¬(s = .negative ↔ t = .negative) := by
  have same (s : Sign) : s / s = .positive := by cases s <;> rfl
  have other : Sign.negative / Sign.positive = .negative ∧ Sign.positive / Sign.negative = .negative :=
    ⟨rfl, rfl⟩
  cases s <;> cases t <;> simp only [same, other, reduceCtorEq, iff_true, iff_false, not_true, not_false_eq_true]

theorem isNegative_div (number : (x / y).isNaN = false) :
    isNegative (x / y) = (isNegative x ^^ isNegative y) := by
  have parts (u v : UnpackedFloat) (number : (UnpackedFloat.div .binary32 u v).isNaN = false) :
      u.isNaN = false ∧ v.isNaN = false := by
    cases u <;> cases v <;> first | exact ⟨rfl, rfl⟩ | cases number
  have exact : (UnpackedFloat.div .binary32 x.toModel.unpack y.toModel.unpack).isNaN = false := by
    cases quotient : UnpackedFloat.div .binary32 x.toModel.unpack y.toModel.unpack with
    | notANumber =>
        change (UnpackedFloat.unpack .binary32 (UnpackedFloat.pack .binary32
          (UnpackedFloat.div .binary32 x.toModel.unpack y.toModel.unpack))).isNaN = false at number
        rw [quotient] at number
        exact absurd number (by decide +kernel)
    | _ => rfl
  obtain ⟨numberX, numberY⟩ := parts _ _ exact
  have quotient : isNegative (x / y) = true ↔
      signOf x.toModel.unpack / signOf y.toModel.unpack = .negative := by
    rw [isNegative_iff, ← signOf_div exact]
    exact signOf_pack exact
  rw [Bool.eq_iff_iff, quotient, div_eq_negative, Bool.xor_iff_ne, ne_eq, Bool.eq_iff_iff,
    isNegative_iff_signOf numberX, isNegative_iff_signOf numberY]

end BoxTree.Scalar

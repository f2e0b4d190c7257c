import BoxTree.Proofs.Scalar.Alike

/-!
# Results that are not rounded

A result that has the place of a finite number has its value. So have products with one and minus one.
-/

namespace BoxTree.Scalar
open Float.Model UnpackedFloat

variable {w x y : Float32}

theorem value_of_opposite (numberX : x.isNaN = false) (numberY : y.isNaN = false)
    (opposite : key x = -key y) : x.isFinite = y.isFinite ∧ value x = -value y := by
  obtain ⟨canonical, sameNaN, turned⟩ := neg_spec (canonical_unpack y)
  have same : UnpackedAlike x.toModel.unpack y.toModel.unpack.neg :=
    rank_inj (canonical_unpack x) canonical numberX (sameNaN.trans numberY) (opposite.trans turned.symm)
  change x.toModel.unpack.isFinite = y.toModel.unpack.isFinite ∧ _
  rw [value, value, ← exactValue_neg, ← isFinite_neg y.toModel.unpack]
  rcases same with same | ⟨s, t, zeroX, zeroY⟩
  · rw [same]
    exact ⟨rfl, rfl⟩
  · rw [zeroX, zeroY]
    exact ⟨rfl, rfl⟩

theorem value_of_rounded (finite : y.isFinite = true) (number : x.isNaN = false)
    (place : key x = rounded (value y)) : x.isFinite = true ∧ value x = value y := by
  have bounds := key_lt_of_finite finite
  rw [rounded_eq_key finite] at place
  have finiteX := finite_of_key number (by omega) (by omega)
  exact ⟨finiteX, value_eq_of_key_eq finiteX finite place⟩

theorem value_of_rounded_neg (finite : y.isFinite = true) (number : x.isNaN = false)
    (place : key x = rounded (-value y)) : x.isFinite = true ∧ value x = -value y := by
  rw [rounded_neg, rounded_eq_key finite] at place
  obtain ⟨same, opposite⟩ := value_of_opposite number (isNaN_of_finite finite) place
  exact ⟨same.trans finite, opposite⟩

theorem value_of_unit (unit : (w == 1) = true ∨ (w == -1) = true) :
    w.isFinite = true ∧ (value w = 1 ∨ value w = -1) := by
  have one : value 1 = 1 ∧ value (-1) = -1 := by decide +kernel
  rcases unit with equal | equal <;> obtain ⟨number, _, keys⟩ := beq_iff_key.1 equal
  · obtain ⟨finite, same⟩ := value_of_rounded (y := 1) rfl number (keys.trans (rounded_eq_key rfl).symm)
    exact ⟨finite, .inl (same.trans one.1)⟩
  · obtain ⟨finite, same⟩ := value_of_rounded (y := -1) rfl number (keys.trans (rounded_eq_key rfl).symm)
    exact ⟨finite, .inr (same.trans one.2)⟩

theorem value_unit_mul (unit : (w == 1) = true ∨ (w == -1) = true) (finite : y.isFinite = true) :
    (w * y).isFinite = true ∧ value (w * y) = value w * value y := by
  obtain ⟨finiteW, one | one⟩ := value_of_unit unit
  · have place := key_mul finiteW finite
    rw [one, one_mul] at place ⊢
    exact value_of_rounded finite (isNaN_mul finiteW finite) place
  · have place := key_mul finiteW finite
    rw [one, neg_one_mul] at place ⊢
    exact value_of_rounded_neg finite (isNaN_mul finiteW finite) place

theorem value_of_zero (zero : (x == 0) = true) : x.isFinite = true ∧ value x = 0 := by
  obtain ⟨number, _, keys⟩ := beq_iff_key.1 zero
  exact value_of_rounded (y := 0) rfl number (keys.trans (rounded_eq_key rfl).symm)

def ExactDifference (x y : Float32) : Prop :=
  (x - y).isFinite = true ∧ value (x - y) = value x - value y

end BoxTree.Scalar

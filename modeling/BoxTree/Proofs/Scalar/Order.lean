import BoxTree.Scalar
import Mathlib

/-!
# The order of scalars

Comparing two numbers is comparing their places in the sorting order. The operations that take the
smaller or the larger number follow from that, and keep their first operand among equals.
-/

namespace BoxTree.Scalar
open Float.Model UnpackedFloat

/-! ## Unpacked numbers -/

/-- Place of an unpacked number in the order, zero for both zeros. -/
def rank : UnpackedFloat → Int
  | .notANumber => 0
  | .infinity sign => sign.apply 0x7f800000
  | .zero _ => 0
  | .finite sign mantissa exponent _ => sign.apply ((exponent + 149) * 0x800000 + mantissa)

def Canonical : UnpackedFloat → Prop
  | .finite _ mantissa exponent _ =>
    mantissa < 0x1000000 ∧ -149 ≤ exponent ∧ exponent ≤ 104 ∧ (exponent = -149 ∨ 0x800000 ≤ mantissa)
  | _ => True

theorem compare_magnitude {m₁ m₂ : Nat} {e₁ e₂ : Int}
    (h₁ : m₁ < 0x1000000 ∧ -149 ≤ e₁ ∧ e₁ ≤ 104 ∧ (e₁ = -149 ∨ 0x800000 ≤ m₁))
    (h₂ : m₂ < 0x1000000 ∧ -149 ≤ e₂ ∧ e₂ ≤ 104 ∧ (e₂ = -149 ∨ 0x800000 ≤ m₂)) :
    (compare e₁ e₂).then (compare m₁ m₂) =
      compare ((e₁ + 149) * 0x800000 + (m₁ : Int)) ((e₂ + 149) * 0x800000 + m₂) := by
  rcases lt_trichotomy e₁ e₂ with less | rfl | less
  · rw [compare_lt_iff_lt.2 less, Ordering.lt_then, eq_comm, compare_lt_iff_lt]
    omega
  · rw [compare_eq_iff_eq.2 rfl, Ordering.eq_then]
    rcases lt_trichotomy m₁ m₂ with less | rfl | less
    · rw [compare_lt_iff_lt.2 less, eq_comm, compare_lt_iff_lt]
      omega
    · simp
    · rw [compare_gt_iff_gt.2 less, eq_comm, compare_gt_iff_gt]
      omega
  · rw [compare_gt_iff_gt.2 less, Ordering.gt_then, eq_comm, compare_gt_iff_gt]
    omega

theorem some_lt {a b : Int} (less : a < b) : some Ordering.lt = some (compare a b) := by
  rw [compare_lt_iff_lt.2 less]

theorem some_gt {a b : Int} (less : b < a) : some Ordering.gt = some (compare a b) := by
  rw [compare_gt_iff_gt.2 less]

theorem rank_bounds {s : Sign} {m : Nat} {e : Int} {pos : 0 < m} (h : Canonical (.finite s m e pos)) :
    match s with
    | .positive => 0 < rank (.finite s m e pos) ∧ rank (.finite s m e pos) < 0x7f800000
    | .negative => rank (.finite s m e pos) < 0 ∧ -0x7f800000 < rank (.finite s m e pos) := by
  obtain ⟨small, least, greatest, -⟩ := h
  cases s <;> simp only [rank, Sign.apply] <;> omega

theorem compare_neg (a b : Int) : compare (-a) (-b) = compare b a := by
  simp only [Int.compare_eq_ite_lt]
  grind

theorem compare_eq_rank {u v : UnpackedFloat} (hu : Canonical u) (hv : Canonical v)
    (nu : u.isNaN = false) (nv : v.isNaN = false) :
    u.compare v = some (compare (rank u) (rank v)) := by
  cases u with
  | notANumber => cases nu
  | infinity s =>
      cases v with
      | notANumber => cases nv
      | infinity t => cases s <;> cases t <;> rfl
      | zero t => cases s <;> rfl
      | finite t m e pos =>
          have bounds := rank_bounds hv
          cases s with
          | negative => cases t <;> exact some_lt (by grind [rank, Sign.apply])
          | positive => cases t <;> exact some_gt (by grind [rank, Sign.apply])
  | zero s =>
      cases v with
      | notANumber => cases nv
      | infinity t => cases t <;> rfl
      | zero t => rfl
      | finite t m e pos =>
          have bounds := rank_bounds hv
          cases t with
          | negative => exact some_gt bounds.1
          | positive => exact some_lt bounds.1
  | finite s m e pos =>
      have bounds := rank_bounds hu
      cases v with
      | notANumber => cases nv
      | infinity t =>
          cases t with
          | negative => cases s <;> exact some_gt (by grind [rank, Sign.apply])
          | positive => cases s <;> exact some_lt (by grind [rank, Sign.apply])
      | zero t =>
          cases s with
          | negative => exact some_lt bounds.1
          | positive => exact some_gt bounds.1
      | finite t m' e' pos' =>
          have bounds' := rank_bounds hv
          cases s <;> cases t
          · simp only [UnpackedFloat.compare, rank, Sign.apply, compare_magnitude hu hv,
              Int.compare_swap, compare_neg]
          · exact some_lt (bounds.1.trans bounds'.1)
          · exact some_gt (bounds'.1.trans bounds.1)
          · simp only [UnpackedFloat.compare, rank, Sign.apply, compare_magnitude hu hv]

/-! ## Bits -/

theorem toNat_unpackMantissa (b : BitVec Format.binary32.numBits) :
    (unpackMantissa b).toNat = b.toNat % 0x800000 := by
  simp [unpackMantissa, BitVec.extractLsb]

theorem toNat_unpackExponent (b : BitVec Format.binary32.numBits) :
    (unpackExponent b).toNat = b.toNat / 0x800000 % 0x100 := by
  simp [unpackExponent, BitVec.extractLsb, Nat.shiftRight_eq_div_pow]

theorem toNat_unpackSign (b : BitVec Format.binary32.numBits) :
    (unpackSign b).toNat = b.toNat / 0x80000000 := by
  have bound := b.isLt
  simp [unpackSign, BitVec.extractLsb, Nat.shiftRight_eq_div_pow]
  simp [Format.numBits] at bound
  omega

theorem toNat_implicitBit (m : BitVec 23) : (1#1 ++ m).toNat = 0x800000 + m.toNat := by
  rw [BitVec.toNat_append, ← Nat.shiftLeft_add_eq_or_of_lt m.isLt]
  rfl

def signed (bits : Nat) : Int := if bits < 0x80000000 then bits else 0x80000000 - bits

theorem ofBitVec_unpackSign (b : BitVec Format.binary32.numBits) :
    Sign.ofBitVec (unpackSign b) = if b.toNat < 0x80000000 then .positive else .negative := by
  have field := toNat_unpackSign b
  have bound : b.toNat < 0x100000000 := b.isLt
  by_cases small : b.toNat < 0x80000000
  · have zero : unpackSign b = 0#1 := BitVec.eq_of_toNat_eq (by simp [field]; omega)
    simp only [zero, small, if_true]
    rfl
  · have one : unpackSign b = 1#1 := BitVec.eq_of_toNat_eq (by simp [field]; omega)
    simp only [one, small, if_false]
    rfl

theorem apply_unpackSign (b : BitVec Format.binary32.numBits) (x : Int)
    (magnitude : x = if b.toNat < 0x80000000 then (b.toNat : Int) else b.toNat - 0x80000000) :
    (Sign.ofBitVec (unpackSign b)).apply x = signed b.toNat := by
  rw [ofBitVec_unpackSign, magnitude, signed]
  split
  · rfl
  · simp only [Sign.apply]
    omega

theorem unpack_canonical (b : BitVec Format.binary32.numBits) :
    Canonical (UnpackedFloat.unpack .binary32 b) ∧
      ((UnpackedFloat.unpack .binary32 b).isNaN = false →
        rank (UnpackedFloat.unpack .binary32 b) = signed b.toNat) := by
  have bound : b.toNat < 0x100000000 := b.isLt
  have full : unpackExponent b = -1#_ ↔ b.toNat / 0x800000 % 0x100 = 0xff := by
    rw [← BitVec.toNat_inj, toNat_unpackExponent]
    rfl
  have zero : unpackExponent b = 0#_ ↔ b.toNat / 0x800000 % 0x100 = 0 := by
    rw [← BitVec.toNat_inj, toNat_unpackExponent]
    rfl
  have none : unpackMantissa b = 0#_ ↔ b.toNat % 0x800000 = 0 := by
    rw [← BitVec.toNat_inj, toNat_unpackMantissa]
    rfl
  have bias : (Format.binary32.exponentBias : Int) + Format.binary32.mantissaBitsWithoutImplicit = 150 := rfl
  have implicit : (1#1 ++ unpackMantissa b).toNat = 0x800000 + b.toNat % 0x800000 := by
    rw [toNat_implicitBit, toNat_unpackMantissa]
  simp only [UnpackedFloat.unpack, full, zero, none, bias, implicit, toNat_unpackExponent,
    toNat_unpackMantissa]
  split_ifs with largest integral least integral
  · exact ⟨trivial, fun _ => apply_unpackSign b _ (by split <;> omega)⟩
  · refine ⟨trivial, fun number => ?_⟩
    cases number
  · refine ⟨trivial, fun _ => ?_⟩
    simp only [rank, signed]
    split <;> omega
  · refine ⟨⟨by omega, by omega, by omega, .inl (by omega)⟩, fun _ => apply_unpackSign b _ ?_⟩
    split <;> omega
  · refine ⟨⟨by omega, by omega, by omega, .inr (by omega)⟩, fun _ => apply_unpackSign b _ ?_⟩
    split <;> omega

theorem signed_sortKey {x : Float32} (number : x.isNaN = false) :
    signed x.toBits.toNat = sortKey x - 0x80000000 := by
  have bound : x.toBits.toNat < 0x100000000 := x.toBits.toNat_lt
  simp only [sortKey, number, signed]
  split <;> simp only [Bool.false_eq_true, if_false] <;> omega

theorem compare_eq_sortKey {a b : Float32} (numberA : a.isNaN = false) (numberB : b.isNaN = false) :
    a.toModel.compare b.toModel = some (compare (sortKey a) (sortKey b)) := by
  have spec (x : Float32) (number : x.isNaN = false) :
      Canonical x.toModel.unpack ∧ rank x.toModel.unpack = sortKey x - 0x80000000 := by
    obtain ⟨canonical, place⟩ := unpack_canonical x.toModel.toBits.toBitVec
    exact ⟨canonical, (place number).trans (signed_sortKey number)⟩
  have shifted (m n : Nat) : compare ((m : Int) - 0x80000000) (n - 0x80000000) = compare m n := by
    simp only [Int.compare_eq_ite_lt, Nat.compare_eq_ite_lt]
    grind
  calc a.toModel.compare b.toModel
      = some (compare (rank a.toModel.unpack) (rank b.toModel.unpack)) :=
        compare_eq_rank (spec a numberA).1 (spec b numberB).1 numberA numberB
    _ = some (compare (sortKey a) (sortKey b)) := by
        rw [(spec a numberA).2, (spec b numberB).2, shifted]

theorem compare_of_isNaN {a b : Float32} (nan : a.isNaN ∨ b.isNaN) :
    a.toModel.compare b.toModel = none := by
  unfold Float32.Model.compare
  have unordered : ∀ u v : UnpackedFloat, u.isNaN ∨ v.isNaN → u.compare v = none := by
    intro u v nan
    cases u <;> cases v <;> simp_all [UnpackedFloat.isNaN, UnpackedFloat.compare]
  exact unordered _ _ nan

theorem le_iff {a b : Float32} :
    a ≤ b ↔ a.isNaN = false ∧ b.isNaN = false ∧ sortKey a ≤ sortKey b := by
  have model : a ≤ b ↔ (a.toModel.compare b.toModel).any (·.isLE) := by
    change Float32.le a b = true ↔ _
    simp only [Float32.le, decide_eq_true_eq]
    rfl
  rw [model]
  by_cases nan : a.isNaN ∨ b.isNaN
  · rw [compare_of_isNaN nan]
    rcases nan with nan | nan <;>
      simp only [nan, Option.any_none, Bool.true_eq_false, Bool.false_eq_true, false_and, and_false]
  · simp only [not_or, Bool.not_eq_true] at nan
    rw [compare_eq_sortKey nan.1 nan.2]
    simp only [nan.1, nan.2, Option.any_some, Nat.isLE_compare, true_and]

theorem lt_iff {a b : Float32} :
    a < b ↔ a.isNaN = false ∧ b.isNaN = false ∧ sortKey a < sortKey b := by
  have model : a < b ↔ (a.toModel.compare b.toModel) = some .lt := by
    change Float32.lt a b = true ↔ _
    simp only [Float32.lt, decide_eq_true_eq]
    change Float32.Model.lt _ _ = true ↔ _
    simp only [Float32.Model.lt, UnpackedFloat.lt, beq_iff_eq]
    rfl
  rw [model]
  by_cases nan : a.isNaN ∨ b.isNaN
  · rw [compare_of_isNaN nan]
    rcases nan with nan | nan <;>
      simp only [nan, reduceCtorEq, Bool.true_eq_false, false_and, and_false]
  · simp only [not_or, Bool.not_eq_true] at nan
    rw [compare_eq_sortKey nan.1 nan.2]
    simp only [nan.1, nan.2, Option.some.injEq, Nat.compare_eq_lt, true_and]

theorem isNaN_infinity : infinity.isNaN = false := by decide +kernel

theorem sortKey_infinity : sortKey infinity = 0xff800000 := by decide +kernel

theorem isNaN_negativeInfinity : negativeInfinity.isNaN = false := by decide +kernel

theorem sortKey_negativeInfinity : sortKey negativeInfinity = 0x800000 := by decide +kernel

theorem rank_le {u : UnpackedFloat} (canonical : Canonical u) :
    -0x7f800000 ≤ rank u ∧ rank u ≤ 0x7f800000 := by
  cases u with
  | notANumber => exact ⟨by decide, by decide⟩
  | infinity s => cases s <;> exact ⟨by decide, by decide⟩
  | zero s => exact ⟨by simp [rank], by simp [rank]⟩
  | finite s m e pos =>
      have bounds := rank_bounds canonical
      cases s <;> simp only at bounds <;> omega

theorem sortKey_bounds {x : Float32} (number : x.isNaN = false) :
    sortKey negativeInfinity ≤ sortKey x ∧ sortKey x ≤ sortKey infinity := by
  obtain ⟨canonical, place⟩ := unpack_canonical x.toModel.toBits.toBitVec
  have bounds := rank_le canonical
  rw [(place number).trans (signed_sortKey number)] at bounds
  rw [sortKey_infinity, sortKey_negativeInfinity]
  omega

theorem not_lt_negativeInfinity (d : Float32) : ¬d < negativeInfinity := by
  rw [lt_iff]
  rintro ⟨number, _, keys⟩
  exact absurd keys (sortKey_bounds number).1.not_gt

theorem not_infinity_lt (d : Float32) : ¬infinity < d := by
  rw [lt_iff]
  rintro ⟨_, number, keys⟩
  exact absurd keys (sortKey_bounds number).2.not_gt

/-! ## The smaller and the larger number -/

theorem isNaN_minNum {a : Float32} (b : Float32) (number : a.isNaN = false) :
    (minNum a b).isNaN = false := by
  unfold minNum
  split
  · next chosen =>
      simp only [number, Bool.false_or, decide_eq_true_eq] at chosen
      exact (lt_iff.1 chosen).1
  · exact number

theorem isNaN_maxNum {a : Float32} (b : Float32) (number : a.isNaN = false) :
    (maxNum a b).isNaN = false := by
  unfold maxNum
  split
  · next chosen =>
      simp only [number, Bool.false_or, decide_eq_true_eq] at chosen
      exact (lt_iff.1 chosen).2.1
  · exact number

theorem minNum_eq {a b : Float32} (numberA : a.isNaN = false) (numberB : b.isNaN = false) :
    minNum a b = if sortKey b < sortKey a then b else a := by
  simp only [minNum, numberA, numberB, Bool.false_or, lt_iff, true_and, decide_eq_true_eq]

theorem maxNum_eq {a b : Float32} (numberA : a.isNaN = false) (numberB : b.isNaN = false) :
    maxNum a b = if sortKey a < sortKey b then b else a := by
  simp only [maxNum, numberA, numberB, Bool.false_or, lt_iff, true_and, decide_eq_true_eq]

theorem sortKey_minNum {a b : Float32} (numberA : a.isNaN = false) (numberB : b.isNaN = false) :
    sortKey (minNum a b) = min (sortKey a) (sortKey b) := by
  rw [minNum_eq numberA numberB]
  split <;> omega

theorem sortKey_maxNum {a b : Float32} (numberA : a.isNaN = false) (numberB : b.isNaN = false) :
    sortKey (maxNum a b) = max (sortKey a) (sortKey b) := by
  rw [maxNum_eq numberA numberB]
  split <;> omega

theorem minNum_infinity {a : Float32} (number : a.isNaN = false) : minNum a infinity = a := by
  rw [minNum_eq number isNaN_infinity, if_neg (not_lt.2 (sortKey_bounds number).2)]

theorem maxNum_negativeInfinity {a : Float32} (number : a.isNaN = false) :
    maxNum a negativeInfinity = a := by
  rw [maxNum_eq number isNaN_negativeInfinity, if_neg (not_lt.2 (sortKey_bounds number).1)]

theorem not_lt_of_isNaN {a b : Float32} (nan : a.isNaN = true ∨ b.isNaN = true) : ¬a < b := by
  rw [lt_iff]
  rcases nan with nan | nan <;> simp only [nan, Bool.true_eq_false, false_and, and_false, not_false_eq_true]

theorem maxNum_of_isNaN {a b : Float32} :
    (a.isNaN = true → maxNum a b = b) ∧ (a.isNaN = false → b.isNaN = true → maxNum a b = a) := by
  refine ⟨fun nan => by rw [maxNum, nan, Bool.true_or, if_pos rfl], fun number nan => ?_⟩
  have notLess : ¬a < b := not_lt_of_isNaN (.inr nan)
  rw [maxNum, number, Bool.false_or, decide_eq_false notLess, if_neg Bool.false_ne_true]

theorem minNum_of_isNaN {a b : Float32} :
    (a.isNaN = true → minNum a b = b) ∧ (a.isNaN = false → b.isNaN = true → minNum a b = a) := by
  refine ⟨fun nan => by rw [minNum, nan, Bool.true_or, if_pos rfl], fun number nan => ?_⟩
  have notLess : ¬b < a := not_lt_of_isNaN (.inl nan)
  rw [minNum, number, Bool.false_or, decide_eq_false notLess, if_neg Bool.false_ne_true]

theorem minNum_assoc (a b c : Float32) : minNum (minNum a b) c = minNum a (minNum b c) := by
  cases nanA : a.isNaN with
  | true => rw [minNum_of_isNaN.1 nanA, minNum_of_isNaN.1 nanA]
  | false =>
      cases nanB : b.isNaN with
      | true => rw [minNum_of_isNaN.2 nanA nanB, minNum_of_isNaN.1 nanB]
      | false =>
          cases nanC : c.isNaN with
          | true => rw [minNum_of_isNaN.2 (isNaN_minNum b nanA) nanC, minNum_of_isNaN.2 nanB nanC]
          | false =>
              rw [minNum_eq (isNaN_minNum b nanA) nanC, minNum_eq nanA (isNaN_minNum c nanB),
                sortKey_minNum nanA nanB, sortKey_minNum nanB nanC, minNum_eq nanA nanB, minNum_eq nanB nanC]
              grind

theorem maxNum_assoc (a b c : Float32) : maxNum (maxNum a b) c = maxNum a (maxNum b c) := by
  cases nanA : a.isNaN with
  | true => rw [maxNum_of_isNaN.1 nanA, maxNum_of_isNaN.1 nanA]
  | false =>
      cases nanB : b.isNaN with
      | true => rw [maxNum_of_isNaN.2 nanA nanB, maxNum_of_isNaN.1 nanB]
      | false =>
          cases nanC : c.isNaN with
          | true => rw [maxNum_of_isNaN.2 (isNaN_maxNum b nanA) nanC, maxNum_of_isNaN.2 nanB nanC]
          | false =>
              rw [maxNum_eq (isNaN_maxNum b nanA) nanC, maxNum_eq nanA (isNaN_maxNum c nanB),
                sortKey_maxNum nanA nanB, sortKey_maxNum nanB nanC, maxNum_eq nanA nanB, maxNum_eq nanB nanC]
              grind

theorem lt_maxNum {a b d : Float32} : d < maxNum a b ↔ d < a ∨ d < b := by
  cases nanA : a.isNaN with
  | true => simp only [maxNum_of_isNaN.1 nanA, not_lt_of_isNaN (.inr nanA), false_or]
  | false =>
      cases nanB : b.isNaN with
      | true => simp only [maxNum_of_isNaN.2 nanA nanB, not_lt_of_isNaN (.inr nanB), or_false]
      | false =>
          rw [lt_iff, lt_iff, lt_iff, isNaN_maxNum b nanA, sortKey_maxNum nanA nanB, nanA, nanB,
            lt_max_iff]
          tauto

theorem minNum_lt {a b d : Float32} : minNum a b < d ↔ a < d ∨ b < d := by
  cases nanA : a.isNaN with
  | true => simp only [minNum_of_isNaN.1 nanA, not_lt_of_isNaN (.inl nanA), false_or]
  | false =>
      cases nanB : b.isNaN with
      | true => simp only [minNum_of_isNaN.2 nanA nanB, not_lt_of_isNaN (.inl nanB), or_false]
      | false =>
          rw [lt_iff, lt_iff, lt_iff, isNaN_minNum b nanA, sortKey_minNum nanA nanB, nanA, nanB,
            min_lt_iff]
          tauto

theorem maxNum_mono {a b : Float32} (le : a ≤ b) (c : Float32) : maxNum a c ≤ maxNum b c := by
  obtain ⟨numberA, numberB, keys⟩ := le_iff.1 le
  cases nan : c.isNaN with
  | true => rwa [maxNum_of_isNaN.2 numberA nan, maxNum_of_isNaN.2 numberB nan]
  | false =>
      refine le_iff.2 ⟨isNaN_maxNum c numberA, isNaN_maxNum c numberB, ?_⟩
      rw [sortKey_maxNum numberA nan, sortKey_maxNum numberB nan]
      exact max_le_max_right _ keys

theorem minNum_mono {a b : Float32} (le : a ≤ b) (c : Float32) : minNum a c ≤ minNum b c := by
  obtain ⟨numberA, numberB, keys⟩ := le_iff.1 le
  cases nan : c.isNaN with
  | true => rwa [minNum_of_isNaN.2 numberA nan, minNum_of_isNaN.2 numberB nan]
  | false =>
      refine le_iff.2 ⟨isNaN_minNum c numberA, isNaN_minNum c numberB, ?_⟩
      rw [sortKey_minNum numberA nan, sortKey_minNum numberB nan]
      exact min_le_min_right _ keys

theorem minNum_eq_or (a b : Float32) : minNum a b = a ∨ minNum a b = b := by
  unfold minNum
  split
  · exact .inr rfl
  · exact .inl rfl

theorem not_lt_iff {a b : Float32} (numberA : a.isNaN = false) (numberB : b.isNaN = false) :
    ¬a < b ↔ b ≤ a := by
  rw [lt_iff, le_iff]
  simp only [numberA, numberB, true_and]
  omega

theorem le_trans_scalar {a b c : Float32} (first : a ≤ b) (second : b ≤ c) : a ≤ c := by
  rw [le_iff] at first second ⊢
  exact ⟨first.1, second.2.1, first.2.2.trans second.2.2⟩

theorem le_refl_scalar {a : Float32} (number : a.isNaN = false) : a ≤ a :=
  le_iff.2 ⟨number, number, le_rfl⟩

theorem le_of_lt_scalar {a b : Float32} (less : a < b) : a ≤ b := by
  rw [lt_iff] at less
  rw [le_iff]
  exact ⟨less.1, less.2.1, less.2.2.le⟩

theorem not_lt_self (a : Float32) : ¬a < a :=
  fun less => lt_irrefl _ (lt_iff.1 less).2.2

theorem le_of_forall_lt {a b : Float32} (numberA : a.isNaN = false) (numberB : b.isNaN = false)
    (below : ∀ d : Float32, d < a → d < b) : a ≤ b :=
  (not_lt_iff numberB numberA).1 fun less => not_lt_self b (below b less)

theorem le_of_forall_gt {a b : Float32} (numberA : a.isNaN = false) (numberB : b.isNaN = false)
    (above : ∀ d : Float32, b < d → a < d) : a ≤ b :=
  (not_lt_iff numberB numberA).1 fun less => not_lt_self a (above a less)

theorem lt_of_lt_of_le_scalar {a b c : Float32} (first : a < b) (second : b ≤ c) : a < c := by
  rw [lt_iff] at first ⊢
  rw [le_iff] at second
  exact ⟨first.1, second.2.1, first.2.2.trans_le second.2.2⟩

theorem lt_of_le_of_lt_scalar {a b c : Float32} (first : a ≤ b) (second : b < c) : a < c := by
  rw [lt_iff] at second ⊢
  rw [le_iff] at first
  exact ⟨first.1, second.2.1, first.2.2.trans_lt second.2.2⟩

/-! ## Several numbers -/

variable {α : Type} {f : α → Float32} {xs : List α} {a d : Float32}

theorem lt_foldl_maxNum :
    d < xs.foldl (fun acc x => maxNum acc (f x)) a ↔ d < a ∨ ∃ x ∈ xs, d < f x := by
  induction xs generalizing a with
  | nil => simp
  | cons x xs ih => simp only [List.foldl_cons, ih, lt_maxNum, List.mem_cons, exists_eq_or_imp, or_assoc]

theorem foldl_minNum_lt :
    xs.foldl (fun acc x => minNum acc (f x)) a < d ↔ a < d ∨ ∃ x ∈ xs, f x < d := by
  induction xs generalizing a with
  | nil => simp
  | cons x xs ih => simp only [List.foldl_cons, ih, minNum_lt, List.mem_cons, exists_eq_or_imp, or_assoc]

theorem isNaN_foldl_maxNum (number : a.isNaN = false) :
    (xs.foldl (fun acc x => maxNum acc (f x)) a).isNaN = false := by
  induction xs generalizing a with
  | nil => exact number
  | cons x xs ih => exact ih (isNaN_maxNum _ number)

theorem isNaN_foldl_minNum (number : a.isNaN = false) :
    (xs.foldl (fun acc x => minNum acc (f x)) a).isNaN = false := by
  induction xs generalizing a with
  | nil => exact number
  | cons x xs ih => exact ih (isNaN_minNum _ number)

theorem foldl_maxNum_mono {b : Float32} (le : a ≤ b) :
    xs.foldl (fun acc x => maxNum acc (f x)) a ≤ xs.foldl (fun acc x => maxNum acc (f x)) b := by
  induction xs generalizing a b with
  | nil => exact le
  | cons x xs ih => exact ih (maxNum_mono le _)

theorem foldl_minNum_mono {b : Float32} (le : a ≤ b) :
    xs.foldl (fun acc x => minNum acc (f x)) a ≤ xs.foldl (fun acc x => minNum acc (f x)) b := by
  induction xs generalizing a b with
  | nil => exact le
  | cons x xs ih => exact ih (minNum_mono le _)

theorem foldl_minNum_le_start (number : a.isNaN = false) :
    xs.foldl (fun acc x => minNum acc (f x)) a ≤ a :=
  (not_lt_iff number (isNaN_foldl_minNum number)).1 fun less =>
    not_lt_self _ (foldl_minNum_lt.2 (.inl less))

theorem foldl_minNum_le (number : a.isNaN = false) {x : α} (member : x ∈ xs)
    (numberX : (f x).isNaN = false) : xs.foldl (fun acc x => minNum acc (f x)) a ≤ f x :=
  (not_lt_iff numberX (isNaN_foldl_minNum number)).1 fun less =>
    not_lt_self _ (foldl_minNum_lt.2 (.inr ⟨x, member, less⟩))

theorem le_foldl_maxNum (number : a.isNaN = false) {x : α} (member : x ∈ xs)
    (numberX : (f x).isNaN = false) : f x ≤ xs.foldl (fun acc x => maxNum acc (f x)) a :=
  (not_lt_iff (isNaN_foldl_maxNum number) numberX).1 fun less =>
    not_lt_self _ (lt_foldl_maxNum.2 (.inr ⟨x, member, less⟩))

theorem foldl_minNum_of_isNaN (number : a.isNaN = false) (nans : ∀ x ∈ xs, (f x).isNaN = true) :
    xs.foldl (fun acc x => minNum acc (f x)) a = a := by
  induction xs with
  | nil => rfl
  | cons x xs ih =>
      obtain ⟨nan, rest⟩ := List.forall_mem_cons.1 nans
      rw [List.foldl_cons, minNum_of_isNaN.2 number nan]
      exact ih rest

theorem foldl_maxNum_of_isNaN (number : a.isNaN = false) (nans : ∀ x ∈ xs, (f x).isNaN = true) :
    xs.foldl (fun acc x => maxNum acc (f x)) a = a := by
  induction xs with
  | nil => rfl
  | cons x xs ih =>
      obtain ⟨nan, rest⟩ := List.forall_mem_cons.1 nans
      rw [List.foldl_cons, maxNum_of_isNaN.2 number nan]
      exact ih rest

theorem foldl_minNum_eq_or :
    xs.foldl (fun acc x => minNum acc (f x)) a = a ∨
      ∃ x ∈ xs, xs.foldl (fun acc x => minNum acc (f x)) a = f x := by
  induction xs generalizing a with
  | nil => exact .inl rfl
  | cons x xs ih =>
      rw [List.foldl_cons]
      rcases ih (a := minNum a (f x)) with same | ⟨other, member, same⟩
      · rcases minNum_eq_or a (f x) with first | here
        · exact .inl (same.trans first)
        · exact .inr ⟨x, List.mem_cons_self, same.trans here⟩
      · exact .inr ⟨other, List.mem_cons_of_mem x member, same⟩

end BoxTree.Scalar

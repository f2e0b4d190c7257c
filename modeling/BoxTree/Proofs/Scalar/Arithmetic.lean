import BoxTree.Proofs.Scalar.Rounding

/-!
# Arithmetic

What arithmetic does to the places of scalars in their order. A product has the place that the exact
product of the values is rounded to.
-/

namespace BoxTree.Scalar
open Float.Model UnpackedFloat

/-! ## Values -/

def exactValue : UnpackedFloat → ℚ
  | .finite sign mantissa exponent _ => (sign.apply mantissa : ℤ) * 2 ^ exponent
  | _ => 0

theorem exactValue_zero (s : Sign) : exactValue (.zero s) = 0 := rfl

def value (x : Float32) : ℚ := exactValue x.toModel.unpack

/-- Place of a number in the order, zero for both zeros. -/
def key (x : Float32) : ℤ := rank x.toModel.unpack

theorem value_of_unpack {x : Float32} {s : Sign} {m : ℕ} {e : ℤ} {positive : 0 < m}
    (shape : x.toModel.unpack = .finite s m e positive) : value x = (s.apply m : ℤ) * 2 ^ e := by
  rw [value, shape, exactValue]

theorem isFinite_of_unpack {x : Float32} {s : Sign} {m : ℕ} {e : ℤ} {positive : 0 < m}
    (shape : x.toModel.unpack = .finite s m e positive) : x.isFinite = true :=
  congrArg UnpackedFloat.isFinite shape

theorem isNaN_of_infinity {x : Float32} {s : Sign} (infinite : x.toModel.unpack = .infinity s) :
    x.isNaN = false :=
  congrArg UnpackedFloat.isNaN infinite

theorem canonical_unpack (x : Float32) : Canonical x.toModel.unpack :=
  (unpack_canonical x.toModel.toBits.toBitVec).1

theorem key_eq_sortKey {x : Float32} (number : x.isNaN = false) : key x = sortKey x - 0x80000000 :=
  ((unpack_canonical x.toModel.toBits.toBitVec).2 number).trans (signed_sortKey number)

theorem le_iff_key {a b : Float32} : a ≤ b ↔ a.isNaN = false ∧ b.isNaN = false ∧ key a ≤ key b := by
  rw [le_iff]
  refine and_congr_right fun numberA => and_congr_right fun numberB => ?_
  rw [key_eq_sortKey numberA, key_eq_sortKey numberB]
  omega

theorem lt_iff_key {a b : Float32} : a < b ↔ a.isNaN = false ∧ b.isNaN = false ∧ key a < key b := by
  rw [lt_iff]
  refine and_congr_right fun numberA => and_congr_right fun numberB => ?_
  rw [key_eq_sortKey numberA, key_eq_sortKey numberB]
  omega

theorem beq_iff_key {a b : Float32} :
    (a == b) = true ↔ a.isNaN = false ∧ b.isNaN = false ∧ key a = key b := by
  have model : (a == b) = (a.toModel.compare b.toModel == some .eq) := rfl
  rw [model]
  by_cases nan : a.isNaN ∨ b.isNaN
  · rw [compare_of_isNaN nan]
    rcases nan with nan | nan <;>
      simp only [nan, Option.none_beq_some, Bool.true_eq_false, Bool.false_eq_true, false_and, and_false]
  · simp only [not_or, Bool.not_eq_true] at nan
    rw [compare_eq_sortKey nan.1 nan.2, key_eq_sortKey nan.1, key_eq_sortKey nan.2]
    simp only [nan.1, nan.2, Option.some_beq_some, beq_iff_eq, Nat.compare_eq_eq, true_and]
    omega

theorem quantum_of_canonical {s : Sign} {m : Nat} {e : ℤ} {positive : 0 < m}
    (canonical : Canonical (.finite s m e positive)) : quantum ((m : ℚ) * 2 ^ e) = e := by
  obtain ⟨small, least, -, leading⟩ := canonical
  have bits : m.log2 < 24 := (Nat.log2_lt positive.ne').2 small
  rw [quantum, log_mul_zpow positive]
  rcases leading with rfl | leading
  · omega
  · have : 23 ≤ m.log2 := (Nat.le_log2 positive.ne').2 leading
    omega

theorem rounded_of_canonical {s : Sign} {m : Nat} {e : ℤ} {positive : 0 < m}
    (canonical : Canonical (.finite s m e positive)) :
    rounded ((m : ℚ) * 2 ^ e) = (e + 149) * 0x800000 + m := by
  have unit : (2 : ℚ) ^ e ≠ 0 := by positivity
  have large : 0 < (m : ℚ) * 2 ^ e := by positivity
  have exponent := quantum_of_canonical canonical
  obtain ⟨small, _, greatest, _⟩ := canonical
  rw [rounded_of_pos large, place, if_neg (not_le.2 large), exponent, mul_div_cancel_right₀ _ unit,
    ← Int.cast_natCast, nearestEven_intCast]
  omega

theorem rounded_apply (s : Sign) (m : ℕ) (e : ℤ) :
    rounded ((s.apply m : ℤ) * 2 ^ e) = s.apply (rounded (m * 2 ^ e)) := by
  cases s with
  | positive => simp only [Sign.apply, Int.cast_natCast]
  | negative => simp only [Sign.apply, Int.cast_neg, Int.cast_natCast, neg_mul, rounded_neg]

theorem rounded_value {u : UnpackedFloat} (canonical : Canonical u) (finite : u.isFinite = true) :
    rounded (exactValue u) = rank u := by
  cases u with
  | notANumber => cases finite
  | infinity s => cases finite
  | zero s => exact rounded_zero
  | finite s m e positive =>
      rw [exactValue, rounded_apply, rounded_of_canonical canonical, rank]

theorem beq_of_le_of_le {a b : Float32} (le : a ≤ b) (ge : b ≤ a) : (a == b) = true := by
  rw [le_iff_key] at le ge
  exact beq_iff_key.2 ⟨le.1, le.2.1, le_antisymm le.2.2 ge.2.2⟩

/-! ## Packing -/

theorem toNat_packComponents (s : Sign) (e : BitVec 8) (m : BitVec 23) :
    (packComponents .binary32 s e m).toNat =
      s.toBitVec.toNat * 0x80000000 + e.toNat * 0x800000 + m.toNat := by
  rw [packComponents, BitVec.toNat_append, BitVec.toNat_append,
    ← Nat.shiftLeft_add_eq_or_of_lt e.isLt, ← Nat.shiftLeft_add_eq_or_of_lt m.isLt,
    Nat.shiftLeft_eq, Nat.shiftLeft_eq]
  omega

theorem signed_packComponents (s : Sign) (e : BitVec 8) (m : BitVec 23) :
    signed (packComponents .binary32 s e m).toNat = s.apply (e.toNat * 0x800000 + m.toNat) := by
  have := e.isLt
  have := m.isLt
  have positive : Sign.positive.toBitVec.toNat = 0 := rfl
  have negative : Sign.negative.toBitVec.toNat = 1 := rfl
  rw [toNat_packComponents]
  cases s <;> simp only [signed, Sign.apply, positive, negative] <;> split <;> omega

def clamp (k : ℤ) : ℤ := max (-0x7f800000) (min k 0x7f800000)

theorem clamp_apply {s : Sign} {k : ℤ} (nonneg : 0 ≤ k) :
    clamp (s.apply k) = s.apply (min k 0x7f800000) := by
  cases s <;> simp only [clamp, Sign.apply] <;> omega

theorem clamp_apply_place (s : Sign) {q : ℚ} (positive : 0 < q) :
    clamp (s.apply ((quantum q + 149) * 0x800000 + nearestEven (q / 2 ^ quantum q))) =
      s.apply (rounded q) := by
  have mantissa := nearestEven_quantum positive
  have exponent := quantum_bounds positive
  rw [clamp_apply (by omega), rounded_of_pos positive, place, if_neg (not_le.2 positive)]

theorem signed_pack {u : UnpackedFloat} (normalized : Normalized u) (number : u.isNaN = false) :
    signed (UnpackedFloat.pack .binary32 u).toNat = clamp (rank u) := by
  cases u with
  | notANumber => cases number
  | infinity s => cases s <;> rfl
  | zero s => cases s <;> rfl
  | finite s m e positive =>
      obtain ⟨small, least, leading⟩ := normalized
      have bias : (e + Format.binary32.exponentBias + Format.binary32.mantissaBitsWithoutImplicit).toNat =
          (e + 150).toNat := by
        simp only [Format.exponentBias]
        norm_num
        omega
      have width : Format.mantissaBits .binary32 = 24 := rfl
      have bits : m.log2 < 24 := (Nat.log2_lt positive.ne').2 small
      rw [rank, clamp_apply (by omega), UnpackedFloat.pack]
      simp only [bias, width]
      split_ifs with large leads
      · rw [packedInfinity, signed_packComponents]
        congr 1
        simp
        omega
      · have : 23 ≤ m.log2 := by omega
        have : 0x800000 ≤ m := (Nat.le_log2 positive.ne').1 this
        rw [signed_packComponents, BitVec.toNat_ofNat, BitVec.toNat_ofNat]
        congr 1
        omega
      · have : m.log2 < 23 := by omega
        have : m < 0x800000 := (Nat.log2_lt positive.ne').1 this
        rw [signed_packComponents, BitVec.toNat_ofNat]
        congr 1
        simp
        omega

theorem isNaN_unpack {b : BitVec Format.binary32.numBits} (number : b.toNat % 0x80000000 ≤ 0x7f800000) :
    (UnpackedFloat.unpack .binary32 b).isNaN = false := by
  have full : unpackExponent b = -1#_ ↔ b.toNat / 0x800000 % 0x100 = 0xff := by
    rw [← BitVec.toNat_inj, toNat_unpackExponent]
    rfl
  have none : unpackMantissa b = 0#_ ↔ b.toNat % 0x800000 = 0 := by
    rw [← BitVec.toNat_inj, toNat_unpackMantissa]
    rfl
  simp only [UnpackedFloat.unpack, full, none]
  split_ifs with largest integral
  · rfl
  · omega
  · rfl
  · rfl
  · rfl

theorem isNaN_unpack_pack {u : UnpackedFloat} (normalized : Normalized u) (number : u.isNaN = false) :
    (UnpackedFloat.unpack .binary32 (UnpackedFloat.pack .binary32 u)).isNaN = false := by
  have place := signed_pack normalized number
  have bound : (UnpackedFloat.pack .binary32 u).toNat < 0x100000000 := (UnpackedFloat.pack .binary32 u).isLt
  apply isNaN_unpack
  unfold signed clamp at place
  split at place <;> omega

theorem rank_unpack_pack {u : UnpackedFloat} (normalized : Normalized u) (number : u.isNaN = false) :
    rank (UnpackedFloat.unpack .binary32 (UnpackedFloat.pack .binary32 u)) = clamp (rank u) :=
  ((unpack_canonical _).2 (isNaN_unpack_pack normalized number)).trans (signed_pack normalized number)

theorem normalized_of_canonical {u : UnpackedFloat} (canonical : Canonical u) : Normalized u := by
  cases u with
  | finite s m e positive => exact ⟨canonical.1, canonical.2.1, canonical.2.2.2⟩
  | _ => trivial

theorem clamp_rank {u : UnpackedFloat} (canonical : Canonical u) : clamp (rank u) = rank u := by
  have := rank_le canonical
  unfold clamp
  omega

/-! ## Products -/

theorem apply_mul (s t : Sign) (m n : ℕ) : (s * t).apply (m * n : ℕ) = s.apply m * t.apply n := by
  cases s <;> cases t
  · exact (neg_mul_neg (m : ℤ) n).symm
  · exact (neg_mul (m : ℤ) n).symm
  · exact (mul_neg (m : ℤ) n).symm
  · rfl

theorem le_quantum_mul {s t : Sign} {m n : ℕ} {e f : ℤ} {positive : 0 < m} {positive' : 0 < n}
    (canonicalU : Canonical (.finite s m e positive)) (canonicalV : Canonical (.finite t n f positive')) :
    e + f ≤ quantum ((m * n : ℕ) * 2 ^ (e + f)) := by
  have product : 0 < m * n := Nat.mul_pos positive positive'
  rw [quantum, log_mul_zpow product]
  rcases canonicalU.2.2.2 with rfl | leading
  · rcases canonicalV.2.2.2 with rfl | leading
    · omega
    · have long : 0x800000 ≤ m * n := leading.trans (Nat.le_mul_of_pos_left n positive)
      have : 23 ≤ (m * n).log2 := (Nat.le_log2 product.ne').2 long
      omega
  · have long : 0x800000 ≤ m * n := leading.trans (Nat.le_mul_of_pos_right m positive')
    have : 23 ≤ (m * n).log2 := (Nat.le_log2 product.ne').2 long
    omega

theorem exactValue_mul (s t : Sign) {m n : ℕ} {e f : ℤ} {positive : 0 < m} {positive' : 0 < n} :
    exactValue (.finite s m e positive) * exactValue (.finite t n f positive') =
      ((s * t).apply (m * n : ℕ) : ℤ) * 2 ^ (e + f) := by
  rw [apply_mul, zpow_add₀ two_ne_zero, exactValue, exactValue]
  push_cast
  ring

theorem mul_finite {u v : UnpackedFloat} (canonicalU : Canonical u) (canonicalV : Canonical v)
    (finiteU : u.isFinite = true) (finiteV : v.isFinite = true) :
    Normalized (UnpackedFloat.mul .binary32 u v) ∧ (UnpackedFloat.mul .binary32 u v).isNaN = false ∧
      clamp (rank (UnpackedFloat.mul .binary32 u v)) =
        rounded (exactValue u * exactValue v) := by
  cases u with
  | notANumber => cases finiteU
  | infinity s => cases finiteU
  | zero s =>
      cases v with
      | notANumber => cases finiteV
      | infinity t => cases finiteV
      | zero t => exact ⟨trivial, rfl, by rw [exactValue_zero, zero_mul, rounded_zero]; rfl⟩
      | finite t n f positive =>
          exact ⟨trivial, rfl, by rw [exactValue_zero, zero_mul, rounded_zero]; rfl⟩
  | finite s m e positive =>
      cases v with
      | notANumber => cases finiteV
      | infinity t => cases finiteV
      | zero t => exact ⟨trivial, rfl, by rw [exactValue_zero t, mul_zero, rounded_zero]; rfl⟩
      | finite t n f positive' =>
          have product : 0 < m * n := Nat.mul_pos positive positive'
          obtain ⟨normalized, number, place⟩ := rank_roundWithAccuracy (s * t) product rfl
            (le_quantum_mul canonicalU canonicalV)
          refine ⟨normalized, number, ?_⟩
          rw [UnpackedFloat.mul, place, clamp_apply_place (s * t) (by positivity), exactValue_mul,
            rounded_apply]

/-! ## Scalars -/

theorem finite_or_infinity {x : Float32} (number : x.isNaN = false) :
    x.isFinite = true ∨ ∃ s, x.toModel.unpack = .infinity s := by
  change x.toModel.unpack.isNaN = false at number
  change x.toModel.unpack.isFinite = true ∨ _
  cases unpacked : x.toModel.unpack with
  | notANumber =>
      rw [unpacked] at number
      cases number
  | infinity s => exact .inr ⟨s, rfl⟩
  | zero s => exact .inl rfl
  | finite s m e positive => exact .inl rfl

theorem infinity_of_isInf {x : Float32} (infinite : x.isInf = true) : ∃ s, x.toModel.unpack = .infinity s := by
  change x.toModel.unpack.isInf = true at infinite
  cases shape : x.toModel.unpack <;> rw [shape] at infinite <;> first | exact ⟨_, rfl⟩ | cases infinite

theorem unpack_of_isNaN {x : Float32} (nan : x.isNaN = true) : x.toModel.unpack = .notANumber := by
  change x.toModel.unpack.isNaN = true at nan
  cases shape : x.toModel.unpack <;> rw [shape] at nan <;> first | rfl | cases nan

theorem zero_or_finite {u : UnpackedFloat} (finite : u.isFinite = true) :
    (∃ s, u = .zero s) ∨ ∃ s m e, ∃ positive : 0 < m, u = .finite s m e positive := by
  cases u with
  | notANumber => cases finite
  | infinity s => cases finite
  | zero s => exact .inl ⟨s, rfl⟩
  | finite s m e positive => exact .inr ⟨s, m, e, positive, rfl⟩

theorem isNaN_of_finite {x : Float32} (finite : x.isFinite = true) : x.isNaN = false := by
  change x.toModel.unpack.isFinite = true at finite
  change x.toModel.unpack.isNaN = false
  cases unpacked : x.toModel.unpack with
  | notANumber =>
      rw [unpacked] at finite
      cases finite
  | _ => rfl

theorem key_bounds (x : Float32) : -0x7f800000 ≤ key x ∧ key x ≤ 0x7f800000 :=
  rank_le (canonical_unpack x)

theorem key_lt_of_finite {x : Float32} (finite : x.isFinite = true) :
    -0x7f800000 < key x ∧ key x < 0x7f800000 := by
  have canonical := canonical_unpack x
  change x.toModel.unpack.isFinite = true at finite
  unfold key
  cases unpacked : x.toModel.unpack with
  | notANumber => exact ⟨by decide, by decide⟩
  | infinity s =>
      rw [unpacked] at finite
      cases finite
  | zero s =>
      rw [rank]
      exact ⟨by decide, by decide⟩
  | finite s m e positive =>
      rw [unpacked] at canonical
      have bounds := rank_bounds canonical
      cases s <;> simp only at bounds <;> omega

theorem rounded_eq_key {x : Float32} (finite : x.isFinite = true) : rounded (value x) = key x :=
  rounded_value (canonical_unpack x) finite

theorem rank_inj {u v : UnpackedFloat} (canonicalU : Canonical u) (canonicalV : Canonical v)
    (numberU : u.isNaN = false) (numberV : v.isNaN = false) (same : rank u = rank v) :
    u = v ∨ ∃ s t, u = .zero s ∧ v = .zero t := by
  cases u with
  | notANumber => cases numberU
  | infinity s =>
      cases v with
      | notANumber => cases numberV
      | infinity t => cases s <;> cases t <;> first | exact .inl rfl | cases same
      | zero t => cases s <;> cases same
      | finite t n f positive =>
          have bounds := rank_bounds canonicalV
          cases s <;> cases t <;> simp only [rank, Sign.apply] at same bounds <;> omega
  | zero s =>
      cases v with
      | notANumber => cases numberV
      | infinity t => cases t <;> cases same
      | zero t => exact .inr ⟨s, t, rfl, rfl⟩
      | finite t n f positive =>
          have bounds := rank_bounds canonicalV
          cases t <;> simp only [rank, Sign.apply] at same bounds <;> omega
  | finite s m e positive =>
      have bounds := rank_bounds canonicalU
      cases v with
      | notANumber => cases numberV
      | infinity t => cases s <;> cases t <;> simp only [rank, Sign.apply] at same bounds <;> omega
      | zero t => cases s <;> simp only [rank, Sign.apply] at same bounds <;> omega
      | finite t n f positive' =>
          have bounds' := rank_bounds canonicalV
          obtain ⟨small, least, _, leading⟩ := canonicalU
          obtain ⟨small', least', _, leading'⟩ := canonicalV
          have parts : s = t ∧ m = n ∧ e = f := by
            cases s <;> cases t <;> simp only [rank, Sign.apply] at same bounds bounds' <;>
              first
              | exact ⟨rfl, by omega, by omega⟩
              | omega
          obtain ⟨rfl, rfl, rfl⟩ := parts
          exact .inl rfl

theorem value_eq_of_key_eq {x y : Float32} (finiteX : x.isFinite = true) (finiteY : y.isFinite = true)
    (same : key x = key y) : value x = value y := by
  rcases rank_inj (canonical_unpack x) (canonical_unpack y) (isNaN_of_finite finiteX)
    (isNaN_of_finite finiteY) same with equal | ⟨s, t, zeroX, zeroY⟩
  · rw [value, value, equal]
  · rw [value, value, zeroX, zeroY, exactValue_zero, exactValue_zero]

theorem value_le_of_key_le {x y : Float32} (finiteX : x.isFinite = true) (finiteY : y.isFinite = true)
    (le : key x ≤ key y) : value x ≤ value y := by
  by_contra greater
  have back := rounded_mono (not_le.1 greater).le
  rw [rounded_eq_key finiteX, rounded_eq_key finiteY] at back
  exact greater (value_eq_of_key_eq finiteX finiteY (le_antisymm le back)).le

/-! ## Operations on scalars -/

theorem isNaN_mul {x y : Float32} (finiteX : x.isFinite = true) (finiteY : y.isFinite = true) :
    (x * y).isNaN = false :=
  have ⟨normalized, number, _⟩ :=
    mul_finite (canonical_unpack x) (canonical_unpack y) finiteX finiteY
  isNaN_unpack_pack normalized number

theorem key_mul {x y : Float32} (finiteX : x.isFinite = true) (finiteY : y.isFinite = true) :
    key (x * y) = rounded (value x * value y) :=
  have ⟨normalized, number, place⟩ :=
    mul_finite (canonical_unpack x) (canonical_unpack y) finiteX finiteY
  (rank_unpack_pack normalized number).trans place

theorem isNaN_mul_of_isNaN {x : Float32} (nan : x.isNaN = true) (y : Float32) :
    (x * y).isNaN = true := by
  change (UnpackedFloat.unpack .binary32 (UnpackedFloat.pack .binary32
    (UnpackedFloat.mul .binary32 x.toModel.unpack y.toModel.unpack))).isNaN = true
  have product (v : UnpackedFloat) : UnpackedFloat.mul .binary32 .notANumber v = .notANumber := by
    cases v <;> rfl
  rw [unpack_of_isNaN nan, product]
  decide +kernel

theorem isNaN_mul_of_isNaN_right (x : Float32) {y : Float32} (nan : y.isNaN = true) :
    (x * y).isNaN = true := by
  change (UnpackedFloat.unpack .binary32 (UnpackedFloat.pack .binary32
    (UnpackedFloat.mul .binary32 x.toModel.unpack y.toModel.unpack))).isNaN = true
  have product (u : UnpackedFloat) : UnpackedFloat.mul .binary32 u .notANumber = .notANumber := by
    cases u <;> rfl
  rw [unpack_of_isNaN nan, product]
  decide +kernel

theorem infinity_mul {x y : Float32} {s t : Sign} {m : Nat} {e : ℤ} {positive : 0 < m}
    (infinite : x.toModel.unpack = .infinity s) (finite : y.toModel.unpack = .finite t m e positive) :
    (x * y).toModel.unpack = .infinity (s * t) := by
  change UnpackedFloat.unpack .binary32 (UnpackedFloat.pack .binary32
    (UnpackedFloat.mul .binary32 x.toModel.unpack y.toModel.unpack)) = _
  rw [infinite, finite, UnpackedFloat.mul]
  cases s <;> cases t <;> rfl

theorem mul_unit {x y : Float32} {s : Sign}
    (unit : y.toModel.unpack = .finite s 0x800000 (-23) (by decide)) :
    (x * y).isNaN = x.isNaN ∧ (x.isNaN = false → key (x * y) = s.apply (key x)) := by
  by_cases nan : x.isNaN = true
  · exact ⟨by rw [isNaN_mul_of_isNaN nan, nan], fun number => absurd nan (by rw [number]; decide)⟩
  · have number := Bool.not_eq_true _ ▸ nan
    have finiteY := isFinite_of_unpack unit
    rcases finite_or_infinity number with finite | ⟨t, infinite⟩
    · refine ⟨by rw [isNaN_mul finite finiteY, number], fun _ => ?_⟩
      have one : value y = (s.apply 1 : ℤ) := by
        rw [value, unit, exactValue]
        cases s <;> simp only [Sign.apply] <;> norm_num
      rw [key_mul finite finiteY, one]
      cases s with
      | positive => simp only [Sign.apply, Int.cast_one, mul_one, rounded_eq_key finite]
      | negative =>
          simp only [Sign.apply, Int.cast_neg, Int.cast_one, mul_neg, mul_one, rounded_neg,
            rounded_eq_key finite]
    · have product := infinity_mul infinite unit
      refine ⟨?_, fun _ => ?_⟩
      · rw [number, isNaN_of_infinity product]
      · rw [key, key, product, infinite]
        cases s <;> cases t <;> rfl

theorem mul_one_number (x : Float32) :
    (x * 1).isNaN = x.isNaN ∧ (x.isNaN = false → key (x * 1) = key x) :=
  mul_unit (rfl : (1 : Float32).toModel.unpack = .finite .positive 0x800000 (-23) (by decide))

theorem mul_neg_one_number (x : Float32) :
    (x * -1).isNaN = x.isNaN ∧ (x.isNaN = false → key (x * -1) = -key x) :=
  mul_unit (rfl : (-1 : Float32).toModel.unpack = .finite .negative 0x800000 (-23) (by decide))

theorem neg_spec {u : UnpackedFloat} (canonical : Canonical u) :
    Canonical u.neg ∧ u.neg.isNaN = u.isNaN ∧ rank u.neg = -rank u := by
  cases u with
  | notANumber => exact ⟨trivial, rfl, rfl⟩
  | infinity s => cases s <;> exact ⟨trivial, rfl, rfl⟩
  | zero s => exact ⟨trivial, rfl, rfl⟩
  | finite s m e positive =>
      refine ⟨canonical, rfl, ?_⟩
      cases s
      · exact (neg_neg _).symm
      · rfl

theorem neg_number {x : Float32} (number : x.isNaN = false) :
    (-x).isNaN = false ∧ key (-x) = -key x := by
  obtain ⟨canonical, sameNaN, opposite⟩ := neg_spec (canonical_unpack x)
  have stays : x.toModel.unpack.neg.isNaN = false := sameNaN.trans number
  have normalized := normalized_of_canonical canonical
  refine ⟨isNaN_unpack_pack normalized stays, ?_⟩
  calc key (-x) = clamp (rank x.toModel.unpack.neg) := rank_unpack_pack normalized stays
    _ = rank x.toModel.unpack.neg := clamp_rank canonical
    _ = -key x := opposite

theorem neg_antitone {x y : Float32} (le : x ≤ y) : -y ≤ -x := by
  obtain ⟨numberX, numberY, keys⟩ := le_iff_key.1 le
  obtain ⟨turnedX, keyX⟩ := neg_number numberX
  obtain ⟨turnedY, keyY⟩ := neg_number numberY
  refine le_iff_key.2 ⟨turnedY, turnedX, ?_⟩
  rw [keyX, keyY]
  exact neg_le_neg keys

theorem neg_lt_comm {x y : Float32} (numberX : x.isNaN = false) (numberY : y.isNaN = false) :
    -x < y ↔ -y < x := by
  obtain ⟨turnedX, keyX⟩ := neg_number numberX
  obtain ⟨turnedY, keyY⟩ := neg_number numberY
  rw [lt_iff_key, lt_iff_key, turnedX, turnedY, numberX, numberY, keyX, keyY, neg_lt]

theorem neg_lt_neg_scalar {x y : Float32} (numberX : x.isNaN = false) (numberY : y.isNaN = false) :
    -x < -y ↔ y < x := by
  obtain ⟨turnedX, keyX⟩ := neg_number numberX
  obtain ⟨turnedY, keyY⟩ := neg_number numberY
  rw [lt_iff_key, lt_iff_key, turnedX, turnedY, numberX, numberY, keyX, keyY, neg_lt_neg_iff]

theorem lt_mul_one {x d : Float32} : d < x * 1 ↔ d < x := by
  obtain ⟨sameNaN, sameKey⟩ := mul_one_number x
  rw [lt_iff_key, lt_iff_key, sameNaN]
  exact and_congr_right fun _ => and_congr_right fun number => by rw [sameKey number]

theorem neg_lt_mul_neg_one {x d : Float32} (numberD : d.isNaN = false) : -d < x * -1 ↔ x < d := by
  obtain ⟨sameNaN, opposite⟩ := mul_neg_one_number x
  obtain ⟨turned, keyD⟩ := neg_number numberD
  rw [lt_iff_key, lt_iff_key, sameNaN, keyD]
  constructor
  · rintro ⟨_, number, keys⟩
    rw [opposite number] at keys
    exact ⟨number, numberD, neg_lt_neg_iff.1 keys⟩
  · rintro ⟨number, _, keys⟩
    rw [opposite number]
    exact ⟨turned, number, neg_lt_neg keys⟩

/-- The smallest of several numbers is the largest of their opposites with the sign turned. Opposites need
to be so only where they count. -/
theorem foldl_minNum_turned {α : Type} {f g : α → Float32} {xs : List α} {a : Float32}
    (number : a.isNaN = false)
    (turned : ∀ x d, d.isNaN = false → (-d < f x ↔ g x < d)) :
    xs.foldl (fun acc x => minNum acc (g x)) a ≤ -xs.foldl (fun acc x => maxNum acc (f x)) (-a) ∧
      -xs.foldl (fun acc x => maxNum acc (f x)) (-a) ≤ xs.foldl (fun acc x => minNum acc (g x)) a := by
  have least : (xs.foldl (fun acc x => minNum acc (g x)) a).isNaN = false := isNaN_foldl_minNum number
  have most : (xs.foldl (fun acc x => maxNum acc (f x)) (-a)).isNaN = false :=
    isNaN_foldl_maxNum (neg_number number).1
  have same (d : Float32) (numberD : d.isNaN = false) :
      -xs.foldl (fun acc x => maxNum acc (f x)) (-a) < d ↔
        xs.foldl (fun acc x => minNum acc (g x)) a < d := by
    rw [neg_lt_comm most numberD, lt_foldl_maxNum, foldl_minNum_lt, neg_lt_neg_scalar numberD number]
    simp only [turned _ d numberD]
  exact ⟨le_of_forall_gt least (neg_number most).1 fun d less => (same d (lt_iff.1 less).2.1).1 less,
    le_of_forall_gt (neg_number most).1 least fun d less => (same d (lt_iff.1 less).2.1).2 less⟩

end BoxTree.Scalar

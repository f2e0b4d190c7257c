import BoxTree.Proofs.Scalar.Slack

/-!
# Sums

A sum and a difference have the place that the exact result is rounded to. Nothing is lost near zero:
the difference of two numbers is zero only if they are equal.
-/

namespace BoxTree.Scalar
open Float.Model UnpackedFloat

/-! ## Sums of mantissas -/

theorem snd_decreaseExponent (m : ℕ) (e t : ℤ) : (decreaseExponent m e t).2 = min e t := by
  simp only [decreaseExponent]
  omega

theorem decreaseExponent_value (m : ℕ) (e t : ℤ) :
    ((decreaseExponent m e t).1 : ℚ) * 2 ^ (min e t) = m * 2 ^ e := by
  have places : min e t + ((e - t).toNat : ℤ) = e := by omega
  calc ((decreaseExponent m e t).1 : ℚ) * 2 ^ (min e t)
      = m * (2 ^ (min e t) * 2 ^ ((e - t).toNat : ℤ)) := by
        rw [decreaseExponent, Nat.shiftLeft_eq, zpow_natCast]
        push_cast
        ring
    _ = m * 2 ^ e := by rw [← zpow_add₀ two_ne_zero, places]

theorem rank_round (s : Sign) {m : ℕ} (positive : 0 < m) (e : ℤ) :
    Normalized (UnpackedFloat.round .binary32 s m e) ∧
      (UnpackedFloat.round .binary32 s m e).isNaN = false ∧
      clamp (rank (UnpackedFloat.round .binary32 s m e)) = s.apply (rounded (m * 2 ^ e)) := by
  have large : (0 : ℚ) < m * 2 ^ e := by positivity
  have same := decreaseExponent_value m e (quantum (m * 2 ^ e))
  have longer : 0 < (decreaseExponent m e (quantum (m * 2 ^ e))).1 := by
    rw [decreaseExponent, Nat.shiftLeft_eq]
    positivity
  obtain ⟨normalized, number, place⟩ :=
    rank_roundWithAccuracy s longer same.symm (min_le_right e _)
  have exponent := snd_decreaseExponent m e (quantum (m * 2 ^ e))
  simp only [UnpackedFloat.round, targetExponent_eq positive, exponent]
  exact ⟨normalized, number, by rw [place, clamp_apply_place s large]⟩

theorem rank_normalize (m e : ℤ) (s : Sign) :
    Normalized (UnpackedFloat.normalize .binary32 m e s) ∧
      (UnpackedFloat.normalize .binary32 m e s).isNaN = false ∧
      clamp (rank (UnpackedFloat.normalize .binary32 m e s)) = rounded (m * 2 ^ e) := by
  rcases lt_trichotomy m 0 with negative | rfl | positive
  · have magnitude : ((-m).toNat : ℚ) = -m := by exact_mod_cast Int.toNat_of_nonneg (by omega)
    obtain ⟨normalized, number, place⟩ := rank_round .negative (m := (-m).toNat) (by omega) e
    rw [UnpackedFloat.normalize, compare_lt_iff_lt.2 negative]
    refine ⟨normalized, number, place.trans ?_⟩
    rw [magnitude, Sign.apply, ← rounded_neg, neg_mul, neg_neg]
  · exact ⟨trivial, rfl, by rw [Int.cast_zero, zero_mul, rounded_zero]; rfl⟩
  · have magnitude : (m.toNat : ℚ) = m := by exact_mod_cast Int.toNat_of_nonneg positive.le
    obtain ⟨normalized, number, place⟩ := rank_round .positive (m := m.toNat) (by omega) e
    rw [UnpackedFloat.normalize, compare_gt_iff_gt.2 positive]
    refine ⟨normalized, number, place.trans ?_⟩
    rw [magnitude, Sign.apply]

/-! ## Sums of unpacked numbers -/

theorem apply_decreaseExponent (s : Sign) (m : ℕ) (e t : ℤ) :
    ((s.apply (decreaseExponent m e t).1 : ℤ) : ℚ) * 2 ^ min e t = (s.apply m : ℤ) * 2 ^ e := by
  have same := decreaseExponent_value m e t
  cases s with
  | positive => simpa only [Sign.apply, Int.cast_natCast] using same
  | negative => simp only [Sign.apply, Int.cast_neg, Int.cast_natCast, neg_mul, same]

theorem add_finite {u v : UnpackedFloat} (canonicalU : Canonical u) (canonicalV : Canonical v)
    (finiteU : u.isFinite = true) (finiteV : v.isFinite = true) :
    Normalized (UnpackedFloat.add .binary32 u v) ∧ (UnpackedFloat.add .binary32 u v).isNaN = false ∧
      clamp (rank (UnpackedFloat.add .binary32 u v)) = rounded (exactValue u + exactValue v) := by
  have alone {w : UnpackedFloat} (canonical : Canonical w) (finite : w.isFinite = true) :
      Normalized w ∧ w.isNaN = false ∧ clamp (rank w) = rounded (exactValue w) := by
    refine ⟨normalized_of_canonical canonical, ?_, ?_⟩
    · cases w <;> first | rfl | cases finite
    · rw [clamp_rank canonical, rounded_value canonical finite]
  cases u with
  | notANumber => cases finiteU
  | infinity s => cases finiteU
  | zero s =>
      rw [exactValue_zero, zero_add]
      cases v with
      | notANumber => cases finiteV
      | infinity t => cases finiteV
      | zero t =>
          rw [exactValue_zero, rounded_zero]
          cases s <;> cases t <;> exact ⟨trivial, rfl, rfl⟩
      | finite t n f positive => exact alone canonicalV finiteV
  | finite s m e positive =>
      cases v with
      | notANumber => cases finiteV
      | infinity t => cases finiteV
      | zero t =>
          rw [exactValue_zero, add_zero]
          exact alone canonicalU finiteU
      | finite t n f positive' =>
          have first := apply_decreaseExponent s m e (min e f)
          have second := apply_decreaseExponent t n f (min e f)
          rw [min_eq_right (min_le_left e f)] at first
          rw [min_eq_right (min_le_right e f)] at second
          rw [exactValue, exactValue, ← first, ← second, ← add_mul, ← Int.cast_add]
          exact rank_normalize _ _ _

theorem sub_eq_add (u v : UnpackedFloat) :
    UnpackedFloat.sub .binary32 u v = UnpackedFloat.add .binary32 u v.neg := by
  cases u with
  | notANumber => rfl
  | infinity s => cases v <;> rfl
  | zero s => cases v <;> rfl
  | finite s m e positive =>
      cases v with
      | finite t n f positive' =>
          simp only [UnpackedFloat.sub, UnpackedFloat.add, UnpackedFloat.neg]
          congr 1
          cases t
          · exact sub_neg_eq_add _ _
          · rfl
      | _ => rfl

/-! ## Sums of scalars -/

variable {x y c : Float32}

theorem key_add (finiteX : x.isFinite = true) (finiteY : y.isFinite = true) :
    key (x + y) = rounded (value x + value y) :=
  have ⟨normalized, number, place⟩ :=
    add_finite (canonical_unpack x) (canonical_unpack y) finiteX finiteY
  (rank_unpack_pack normalized number).trans place

theorem exactValue_neg (u : UnpackedFloat) : exactValue u.neg = -exactValue u := by
  cases u with
  | finite s m e positive =>
      cases s <;> simp [exactValue, UnpackedFloat.neg, Sign.apply]
  | _ => rfl

theorem isFinite_neg (u : UnpackedFloat) : u.neg.isFinite = u.isFinite := by
  cases u <;> rfl

theorem sub_finite (finiteX : x.isFinite = true) (finiteY : y.isFinite = true) :
    (x - y).isNaN = false ∧ key (x - y) = rounded (value x - value y) := by
  obtain ⟨normalized, number, place⟩ := add_finite (canonical_unpack x)
    (neg_spec (canonical_unpack y)).1 finiteX ((isFinite_neg _).trans finiteY)
  rw [← sub_eq_add] at normalized number place
  rw [exactValue_neg, ← sub_eq_add_neg] at place
  exact ⟨isNaN_unpack_pack normalized number, (rank_unpack_pack normalized number).trans place⟩

/-! ## What is not finite -/

theorem isFinite_of_pack {u : UnpackedFloat}
    (finite : (UnpackedFloat.unpack .binary32 (UnpackedFloat.pack .binary32 u)).isFinite = true) :
    u.isFinite = true := by
  cases u with
  | notANumber =>
      have stays : (UnpackedFloat.unpack .binary32
        (UnpackedFloat.pack .binary32 .notANumber)).isFinite = false := by decide +kernel
      rw [stays] at finite
      cases finite
  | infinity s => cases s <;> cases finite
  | zero s => rfl
  | finite s m e positive => rfl

theorem finite_of_unpacked_add {u v : UnpackedFloat}
    (finite : (UnpackedFloat.add .binary32 u v).isFinite = true) :
    u.isFinite = true ∧ v.isFinite = true := by
  cases u with
  | notANumber => cases finite
  | infinity s =>
      cases v with
      | infinity t => cases s <;> cases t <;> cases finite
      | _ => cases finite
  | zero s => cases v <;> first | exact ⟨rfl, rfl⟩ | cases finite
  | finite s m e positive => cases v <;> first | exact ⟨rfl, rfl⟩ | cases finite

theorem finite_of_add (finite : (x + y).isFinite = true) :
    x.isFinite = true ∧ y.isFinite = true :=
  finite_of_unpacked_add (isFinite_of_pack finite)

theorem finite_of_sub (finite : (x - y).isFinite = true) :
    x.isFinite = true ∧ y.isFinite = true := by
  have sum : (UnpackedFloat.sub .binary32 x.toModel.unpack y.toModel.unpack).isFinite = true :=
    isFinite_of_pack finite
  rw [sub_eq_add] at sum
  obtain ⟨finiteX, finiteY⟩ := finite_of_unpacked_add sum
  exact ⟨finiteX, (isFinite_neg _).symm.trans finiteY⟩

theorem infinity_sub {s : Sign} (infinite : x.toModel.unpack = .infinity s)
    (finite : y.isFinite = true) : (x - y).toModel.unpack = .infinity s := by
  have left : UnpackedFloat.sub .binary32 (.infinity s) y.toModel.unpack = .infinity s := by
    rcases zero_or_finite finite with ⟨t, shape⟩ | ⟨t, m, e, positive, shape⟩ <;> rw [shape] <;> rfl
  change UnpackedFloat.unpack .binary32 (UnpackedFloat.pack .binary32
    (UnpackedFloat.sub .binary32 x.toModel.unpack y.toModel.unpack)) = _
  rw [infinite, left]
  cases s <;> rfl

/-! ## Differences in order -/

theorem rounds_sub (finite : c.isFinite = true) : Rounds (· - c) (· - value c) where
  mono := fun _ _ le => sub_le_sub_right le _
  number := by
    intro x number
    rcases finite_or_infinity number with finiteX | ⟨s, infinite⟩
    · exact (sub_finite finiteX finite).1
    · exact isNaN_of_infinity (infinity_sub infinite finite)
  finite := fun _ finiteX => (sub_finite finiteX finite).2
  infinite := fun _ _ infinite => key_infinity (infinity_sub infinite finite)

theorem sub_mono (finite : c.isFinite = true) (le : x ≤ y) : x - c ≤ y - c :=
  (rounds_sub finite).le le

/-! ## Zero -/

theorem value_eq_mul (x : Float32) : ∃ n : ℤ, value x = n * 2 ^ (-149 : ℤ) := by
  have canonical := canonical_unpack x
  rw [value]
  cases shape : x.toModel.unpack with
  | finite s m e positive =>
      rw [shape] at canonical
      obtain ⟨_, least, _⟩ := canonical
      refine ⟨s.apply m * 2 ^ (e + 149).toNat, ?_⟩
      have places : e = ((e + 149).toNat : ℤ) + -149 := by omega
      rw [exactValue]
      nth_rewrite 1 [places]
      rw [zpow_add₀ two_ne_zero, zpow_natCast]
      push_cast
      ring
  | _ => exact ⟨0, by rw [Int.cast_zero, zero_mul]; rfl⟩

theorem rounded_least : rounded (2 ^ (-149 : ℤ)) = 1 := by
  have canonical : Canonical (.finite .positive 1 (-149) one_pos) := by
    exact ⟨by decide, by decide, by decide, .inl rfl⟩
  have place := rounded_of_canonical canonical
  rw [Nat.cast_one, one_mul] at place
  exact place

theorem rounded_ne_zero {q : ℚ} (least : 2 ^ (-149 : ℤ) ≤ |q|) : rounded q ≠ 0 := by
  have unit := rounded_least
  rcases le_abs.1 least with positive | negative
  · have := rounded_mono positive
    omega
  · have := rounded_mono negative
    rw [rounded_neg] at this
    omega

theorem eq_zero_of_rounded {n : ℤ} (zero : rounded (n * 2 ^ (-149 : ℤ)) = 0) : n = 0 := by
  by_contra nonzero
  refine rounded_ne_zero ?_ zero
  have unit : (0 : ℚ) < 2 ^ (-149 : ℤ) := by positivity
  have whole : (1 : ℚ) ≤ |(n : ℚ)| := by exact_mod_cast Int.one_le_abs nonzero
  rw [abs_mul, abs_of_pos unit]
  exact le_mul_of_one_le_left unit.le whole

theorem finite_of_key (number : x.isNaN = false) (lower : -0x7f800000 < key x)
    (upper : key x < 0x7f800000) : x.isFinite = true := by
  rcases finite_or_infinity number with finite | ⟨s, infinite⟩
  · exact finite
  · rw [key_infinity infinite] at lower upper
    cases s <;> simp only [Sign.apply] at lower upper <;> omega

theorem sub_beq_zero_iff :
    (x - y == 0) = true ↔ x.isFinite = true ∧ y.isFinite = true ∧ (x == y) = true := by
  have zero : (0 : Float32).isNaN = false ∧ key 0 = 0 := ⟨rfl, rfl⟩
  constructor
  · intro equal
    obtain ⟨number, _, place⟩ := beq_iff_key.1 equal
    rw [zero.2] at place
    obtain ⟨finiteX, finiteY⟩ := finite_of_sub (finite_of_key number (by omega) (by omega))
    refine ⟨finiteX, finiteY, ?_⟩
    rw [beq_iff_key]
    refine ⟨isNaN_of_finite finiteX, isNaN_of_finite finiteY, ?_⟩
    -- Both are multiples of the least scalar, and no multiple but zero is rounded to zero.
    obtain ⟨m, valueX⟩ := value_eq_mul x
    obtain ⟨n, valueY⟩ := value_eq_mul y
    have apart : value x - value y = ((m - n : ℤ) : ℚ) * 2 ^ (-149 : ℤ) := by
      rw [valueX, valueY]
      push_cast
      ring
    rw [(sub_finite finiteX finiteY).2, apart] at place
    have same : m = n := Int.sub_eq_zero.1 (eq_zero_of_rounded place)
    rw [← rounded_eq_key finiteX, ← rounded_eq_key finiteY, valueX, valueY, same]
  · rintro ⟨finiteX, finiteY, equal⟩
    have same := value_eq_of_key_eq finiteX finiteY (beq_iff_key.1 equal).2.2
    obtain ⟨number, place⟩ := sub_finite finiteX finiteY
    rw [same, sub_self, rounded_zero] at place
    exact beq_iff_key.2 ⟨number, zero.1, place.trans zero.2.symm⟩

theorem isNaN_infinity_sub {s : Sign} (infiniteX : x.toModel.unpack = .infinity s)
    (infiniteY : y.toModel.unpack = .infinity s) : (x - y).isNaN = true := by
  change (UnpackedFloat.unpack .binary32 (UnpackedFloat.pack .binary32
    (UnpackedFloat.sub .binary32 x.toModel.unpack y.toModel.unpack))).isNaN = true
  rw [infiniteX, infiniteY]
  cases s <;> decide +kernel

theorem isNaN_sub_of_beq (equal : (x == y) = true) :
    (x - y == 0) = true ∨ (x - y).isNaN = true := by
  obtain ⟨numberX, numberY, same⟩ := beq_iff_key.1 equal
  rcases finite_or_infinity numberX with finiteX | ⟨s, infiniteX⟩
  · have bounds := key_lt_of_finite finiteX
    exact .inl (sub_beq_zero_iff.2 ⟨finiteX, finite_of_key numberY (by omega) (by omega), equal⟩)
  · rw [key_infinity infiniteX] at same
    rcases finite_or_infinity numberY with finiteY | ⟨t, infiniteY⟩
    · have bounds := key_lt_of_finite finiteY
      cases s <;> simp only [Sign.apply] at same <;> omega
    · rw [key_infinity infiniteY] at same
      cases s <;> cases t <;> first | exact .inr (isNaN_infinity_sub infiniteX infiniteY) | cases same

end BoxTree.Scalar

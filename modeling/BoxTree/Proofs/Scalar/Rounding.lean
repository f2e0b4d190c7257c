import BoxTree.Proofs.Scalar.Order

/-!
# Rounding

The exact result of an operation is a rational number. Rounding gives it a place in the order of
scalars: it grows with the number, and a number that is a scalar already gets the place of that scalar.
-/

namespace BoxTree.Scalar
open Float.Model UnpackedFloat

/-! ## Integers -/

def nearestEven (q : ℚ) : ℤ :=
  if Int.fract q < 1 / 2 then ⌊q⌋ else if 1 / 2 < Int.fract q then ⌊q⌋ + 1 else ⌊q⌋ + ⌊q⌋ % 2

theorem nearestEven_bounds (q : ℚ) : ⌊q⌋ ≤ nearestEven q ∧ nearestEven q ≤ ⌊q⌋ + 1 := by
  unfold nearestEven
  split_ifs <;> omega

theorem nearestEven_mono {p q : ℚ} (le : p ≤ q) : nearestEven p ≤ nearestEven q := by
  have floors := Int.floor_mono le
  rcases floors.lt_or_eq with less | same
  · have := nearestEven_bounds p
    have := nearestEven_bounds q
    omega
  · have fracts : Int.fract p ≤ Int.fract q := by
      rw [Int.fract, Int.fract, same]
      linarith
    unfold nearestEven
    rw [same]
    split_ifs <;> first | omega | linarith

theorem nearestEven_intCast (n : ℤ) : nearestEven n = n := by
  simp [nearestEven]

theorem nearestEven_of_near {m : ℤ} {q : ℚ} (lower : m ≤ q) (upper : q < m + 1) :
    nearestEven q = if q < m + 1 / 2 then m else if m + 1 / 2 < q then m + 1 else m + m % 2 := by
  have floor : ⌊q⌋ = m := Int.floor_eq_iff.2 ⟨lower, upper⟩
  simp only [nearestEven, Int.fract, floor, sub_lt_iff_lt_add', lt_sub_iff_add_lt']

theorem nearestEven_eq {n : ℤ} {q : ℚ} (near : |q - n| ≤ 1 / 2) (tie : |q - n| = 1 / 2 → n % 2 = 0) :
    nearestEven q = n := by
  rcases lt_or_ge q n with below | above
  · have previous : ((n - 1 : ℤ) : ℚ) = n - 1 := by push_cast; rfl
    rw [abs_of_neg (sub_neg.2 below)] at near tie
    rw [nearestEven_of_near (m := n - 1) (by linarith) (by linarith), previous]
    split_ifs with nearer farther
    · linarith
    · exact sub_add_cancel n 1
    · have := tie (by linarith)
      omega
  · rw [abs_of_nonneg (sub_nonneg.2 above)] at near tie
    rw [nearestEven_of_near above (by linarith)]
    split_ifs with nearer farther
    · rfl
    · linarith
    · have := tie (by linarith)
      omega

/-! ## Residual bits -/

/-- What a mantissa with its residual bits tells of a number: the integer part, and how the rest
compares with one half. -/
def Represents (em : ExtendedMantissa) (q : ℚ) : Prop :=
  match em.roundBit, em.stickyBit with
  | false, false => q = em.mantissa
  | false, true => em.mantissa < q ∧ q < em.mantissa + 1 / 2
  | true, false => q = em.mantissa + 1 / 2
  | true, true => em.mantissa + 1 / 2 < q ∧ q < em.mantissa + 1

theorem represents_exact (m : Nat) :
    Represents (ExtendedMantissa.ofMantissaAndAccuracy m .exact) m := rfl

theorem Represents.near {em : ExtendedMantissa} {q : ℚ} (represents : Represents em q) :
    (em.mantissa : ℚ) ≤ q ∧ q < em.mantissa + 1 := by
  obtain ⟨m, round, sticky⟩ := em
  cases round <;> cases sticky <;> simp only [Represents] at represents <;> constructor <;> linarith

theorem Represents.roundedMantissa {em : ExtendedMantissa} {q : ℚ} (represents : Represents em q) :
    (em.roundedMantissa : ℤ) = nearestEven q := by
  obtain ⟨lower, upper⟩ := represents.near
  obtain ⟨m, round, sticky⟩ := em
  rw [nearestEven_of_near (m := m) (by exact_mod_cast lower) (by exact_mod_cast upper)]
  cases round <;> cases sticky <;>
    simp only [Represents, ExtendedMantissa.roundedMantissa, ExtendedMantissa.accuracy,
      Accuracy.roundToNearestEven, Int.cast_natCast] at represents ⊢
  · rw [if_pos (by linarith)]
  · rw [if_pos (by linarith)]
  · rw [if_neg (by linarith), if_neg (by linarith)]
    omega
  · rw [if_neg (by linarith), if_pos (by linarith)]
    omega

theorem Represents.shiftRightOne {em : ExtendedMantissa} {q : ℚ} (represents : Represents em q) :
    Represents em.shiftRightOne (q / 2) := by
  obtain ⟨m, round, sticky⟩ := em
  have whole : (m : ℚ) = 2 * (m / 2 : Nat) + (m % 2 : Nat) := by
    exact_mod_cast (Nat.div_add_mod m 2).symm
  have even : ((0 : Nat) != 0) = false := rfl
  have odd : ((1 : Nat) != 0) = true := rfl
  rcases Nat.mod_two_eq_zero_or_one m with bit | bit <;> rw [bit] at whole <;>
    cases round <;> cases sticky <;>
    simp only [Represents, ExtendedMantissa.shiftRightOne, bit, even, odd, Bool.or_false, Bool.or_true,
      Nat.cast_zero, Nat.cast_one] at represents whole ⊢ <;>
    first
    | linarith
    | constructor <;> linarith

theorem Represents.shiftRight {em : ExtendedMantissa} {q : ℚ} (represents : Represents em q)
    (places : Nat) : Represents (em >>> places) (q / 2 ^ places) := by
  change Represents (places.repeat ExtendedMantissa.shiftRightOne em) _
  induction places with
  | zero => simpa [Nat.repeat] using represents
  | succ places ih =>
      rw [Nat.repeat, pow_succ, div_mul_eq_div_div]
      exact ih.shiftRightOne

/-! ## Places -/

def quantum (q : ℚ) : ℤ := max (Int.log 2 q - 23) (-149)

def place (q : ℚ) : ℤ :=
  if q ≤ 0 then 0
  else min ((quantum q + 149) * 0x800000 + nearestEven (q / 2 ^ quantum q)) 0x7f800000

def rounded (q : ℚ) : ℤ := place q - place (-q)

theorem quantum_bounds {q : ℚ} (positive : 0 < q) :
    -149 ≤ quantum q ∧ q / 2 ^ quantum q < 2 ^ 24 ∧
      (quantum q = -149 ∨ 2 ^ 23 ≤ q / 2 ^ quantum q) := by
  have unit : (0 : ℚ) < 2 ^ quantum q := by positivity
  refine ⟨le_max_right _ _, ?_, ?_⟩
  · rw [div_lt_iff₀ unit, ← zpow_natCast, ← zpow_add₀ two_ne_zero]
    calc q < 2 ^ (Int.log 2 q + 1) := by exact_mod_cast Int.lt_zpow_succ_log_self one_lt_two q
      _ ≤ 2 ^ ((24 : Nat) + quantum q) := by
          apply zpow_le_zpow_right₀ one_le_two
          unfold quantum
          push_cast
          omega
  · by_cases least : quantum q = -149
    · exact .inl least
    · right
      rw [le_div_iff₀ unit, ← zpow_natCast, ← zpow_add₀ two_ne_zero]
      have exponent : ((23 : Nat) : ℤ) + quantum q = Int.log 2 q := by
        unfold quantum at least ⊢
        push_cast
        omega
      rw [exponent]
      exact_mod_cast Int.zpow_log_le_self one_lt_two positive

theorem quantum_of_small {q : ℚ} (positive : 0 < q) (small : q < 2 ^ (-126 : ℤ)) : quantum q = -149 := by
  have := (Int.lt_zpow_iff_log_lt one_lt_two positive).1 (by exact_mod_cast small)
  exact max_eq_right (by omega)

theorem nearestEven_quantum {q : ℚ} (positive : 0 < q) :
    0 ≤ nearestEven (q / 2 ^ quantum q) ∧ nearestEven (q / 2 ^ quantum q) ≤ 0x1000000 ∧
      (quantum q = -149 ∨ 0x800000 ≤ nearestEven (q / 2 ^ quantum q)) := by
  obtain ⟨_, upper, lower⟩ := quantum_bounds positive
  have below := nearestEven_mono (p := q / 2 ^ quantum q) (q := (0x1000000 : ℤ)) (by norm_num at upper ⊢; linarith)
  have above := nearestEven_mono (p := (0 : ℤ)) (q := q / 2 ^ quantum q) (by push_cast; positivity)
  rw [nearestEven_intCast] at below above
  refine ⟨above, below, lower.imp_right fun lower => ?_⟩
  have := nearestEven_mono (p := (0x800000 : ℤ)) (q := q / 2 ^ quantum q) (by norm_num at lower ⊢; linarith)
  rwa [nearestEven_intCast] at this

theorem place_bounds (q : ℚ) : 0 ≤ place q ∧ place q ≤ 0x7f800000 := by
  unfold place
  split_ifs with negative
  · omega
  · have := nearestEven_quantum (not_le.1 negative)
    have := quantum_bounds (not_le.1 negative)
    omega

theorem place_mono {p q : ℚ} (le : p ≤ q) : place p ≤ place q := by
  by_cases negative : p ≤ 0
  · rw [place, if_pos negative]
    exact (place_bounds q).1
  · have positive := not_le.1 negative
    have positive' := positive.trans_le le
    rw [place, place, if_neg negative, if_neg (not_le.2 positive')]
    apply min_le_min_right
    have exponents : quantum p ≤ quantum q :=
      max_le_max_right _ (Int.sub_le_sub_right (Int.log_mono_right positive le) 23)
    have here := nearestEven_quantum positive
    have there := nearestEven_quantum positive'
    rcases exponents.lt_or_eq with less | same
    · -- The larger number has its leading bit, the smaller one at most rounds up to it.
      have := quantum_bounds positive
      omega
    · rw [same]
      have := nearestEven_mono (div_le_div_of_nonneg_right le (by positivity : (0 : ℚ) ≤ 2 ^ quantum q))
      omega

theorem rounded_mono {p q : ℚ} (le : p ≤ q) : rounded p ≤ rounded q := by
  have := place_mono le
  have := place_mono (neg_le_neg le)
  unfold rounded
  omega

theorem rounded_neg (q : ℚ) : rounded (-q) = -rounded q := by
  rw [rounded, rounded, neg_neg]
  omega

theorem rounded_zero : rounded 0 = 0 := by
  rw [rounded, neg_zero, sub_self]

theorem rounded_of_pos {q : ℚ} (positive : 0 < q) : rounded q = place q := by
  rw [rounded, place.eq_def (-q), if_pos (by linarith), sub_zero]

/-! ## The rounding of the model -/

def Normalized : UnpackedFloat → Prop
  | .finite _ mantissa exponent _ =>
    mantissa < 0x1000000 ∧ -149 ≤ exponent ∧ (exponent = -149 ∨ 0x800000 ≤ mantissa)
  | _ => True

theorem log_mul_zpow {m : Nat} (positive : 0 < m) (e : ℤ) :
    Int.log 2 ((m : ℚ) * 2 ^ e) = m.log2 + e := by
  have unit : (0 : ℚ) < 2 ^ e := by positivity
  apply le_antisymm
  · rw [← Int.lt_add_one_iff, ← Int.lt_zpow_iff_log_lt one_lt_two (by positivity)]
    have below : (m : ℚ) < 2 ^ (m.log2 + 1) := by exact_mod_cast Nat.lt_log2_self
    have split : ((m.log2 : ℤ) + e + 1) = ((m.log2 + 1 : Nat) : ℤ) + e := by push_cast; ring
    rw [split, Nat.cast_ofNat, zpow_add₀ two_ne_zero, zpow_natCast]
    exact mul_lt_mul_of_pos_right below unit
  · rw [← Int.zpow_le_iff_le_log one_lt_two (by positivity)]
    have above : (2 : ℚ) ^ m.log2 ≤ m := by exact_mod_cast Nat.log2_self_le positive.ne'
    rw [Nat.cast_ofNat, zpow_add₀ two_ne_zero, zpow_natCast]
    exact mul_le_mul_of_nonneg_right above unit.le

theorem targetExponent_eq {m : Nat} (positive : 0 < m) (e : ℤ) :
    Format.binary32.targetExponent (totalExponent m e) = quantum ((m : ℚ) * 2 ^ e) := by
  rw [quantum, log_mul_zpow positive]
  simp only [Format.targetExponent, totalExponent, Format.mantissaBits, Format.minExponent]
  norm_num
  congr 1
  ring

theorem shiftToTargetExponent_small {m : Nat} {e : ℤ} (small : m < 0x1000000) (least : -149 ≤ e) :
    shiftToTargetExponent .binary32 m e .exact = (⟨m, false, false⟩, e) := by
  have bits : m.log2 ≤ 23 := by
    rcases Nat.eq_zero_or_pos m with rfl | positive
    · decide
    · exact Nat.lt_succ_iff.1 ((Nat.log2_lt positive.ne').2 small)
  have none : (Format.binary32.targetExponent (totalExponent m e) - e).toNat = 0 := by
    simp only [Format.targetExponent, totalExponent, Format.mantissaBits, Format.minExponent]
    norm_num
    omega
  simp only [shiftToTargetExponent, shiftToExponent, none]
  exact Prod.ext rfl (Int.add_zero e)

theorem shiftToTargetExponent_carry {e : ℤ} (least : -149 ≤ e) :
    shiftToTargetExponent .binary32 0x1000000 e .exact = (⟨0x800000, false, false⟩, e + 1) := by
  have bits : Nat.log2 0x1000000 = 24 := by decide +kernel
  have one : (Format.binary32.targetExponent (totalExponent 0x1000000 e) - e).toNat = 1 := by
    simp only [Format.targetExponent, totalExponent, Format.mantissaBits, Format.minExponent, bits]
    norm_num
    omega
  simp only [shiftToTargetExponent, shiftToExponent, one]
  rfl

theorem rank_carry (s : Sign) {mantissa : Nat} {e : ℤ} (least : -149 ≤ e)
    (most : mantissa ≤ 0x1000000) (leading : e = -149 ∨ 0x800000 ≤ mantissa) :
    let final := shiftToTargetExponent .binary32 mantissa e .exact
    let u := if h : final.1.mantissa = 0 then UnpackedFloat.zero s
      else .finite s final.1.mantissa final.2 (Nat.pos_of_ne_zero h)
    Normalized u ∧ u.isNaN = false ∧ rank u = s.apply ((e + 149) * 0x800000 + mantissa) := by
  rcases most.lt_or_eq with less | rfl
  · simp only [shiftToTargetExponent_small less least]
    split_ifs with zero
    · refine ⟨trivial, rfl, ?_⟩
      cases s <;> simp only [rank, Sign.apply] <;> omega
    · exact ⟨⟨less, least, leading⟩, rfl, rfl⟩
  · simp only [shiftToTargetExponent_carry least]
    refine ⟨⟨by decide, by omega, .inr (by decide)⟩, rfl, ?_⟩
    cases s <;> simp only [rank, Sign.apply] <;> norm_num <;> ring

/-- Rounding a mantissa that stands for a number together with what is known of the bits below it, if
it has at least as many bits as are kept. -/
theorem rank_roundWithAccuracy_of_represents (s : Sign) {m : Nat} {e : ℤ} {accuracy : Accuracy} {q : ℚ}
    (large : 0 < q)
    (represents : Represents (ExtendedMantissa.ofMantissaAndAccuracy m accuracy) (q / 2 ^ e))
    (target : Format.binary32.targetExponent (totalExponent m e) = quantum q) (long : e ≤ quantum q) :
    Normalized (roundWithAccuracy .binary32 s m e accuracy) ∧
      (roundWithAccuracy .binary32 s m e accuracy).isNaN = false ∧
      rank (roundWithAccuracy .binary32 s m e accuracy) =
        s.apply ((quantum q + 149) * 0x800000 + nearestEven (q / 2 ^ quantum q)) := by
  obtain ⟨least, -, -⟩ := quantum_bounds large
  obtain ⟨-, most, leading⟩ := nearestEven_quantum large
  obtain ⟨places, shift⟩ := Int.le.dest long
  have first : ∃ em, shiftToTargetExponent .binary32 m e accuracy = (em, quantum q) ∧
      (em.roundedMantissa : ℤ) = nearestEven (q / 2 ^ quantum q) := by
    have count : (quantum q - e).toNat = places := by omega
    refine ⟨_, Prod.ext rfl ?_, ?_⟩
    · simp only [shiftToTargetExponent, shiftToExponent, target]
      omega
    · have scaled : q / 2 ^ quantum q = q / 2 ^ e / 2 ^ places := by
        rw [← shift, zpow_add₀ two_ne_zero, zpow_natCast, div_div]
      simp only [shiftToTargetExponent, shiftToExponent, target, count]
      rw [(represents.shiftRight places).roundedMantissa, scaled]
  obtain ⟨em, shifted, rounds⟩ := first
  rw [← rounds] at most leading ⊢
  unfold roundWithAccuracy
  simp only [shifted]
  exact rank_carry s least (by exact_mod_cast most) (by exact_mod_cast leading)

theorem rank_roundWithAccuracy (s : Sign) {m : Nat} (positive : 0 < m) {e : ℤ} {q : ℚ}
    (same : q = m * 2 ^ e) (long : e ≤ quantum q) :
    Normalized (roundWithAccuracy .binary32 s m e .exact) ∧
      (roundWithAccuracy .binary32 s m e .exact).isNaN = false ∧
      rank (roundWithAccuracy .binary32 s m e .exact) =
        s.apply ((quantum q + 149) * 0x800000 + nearestEven (q / 2 ^ quantum q)) := by
  have unit : (2 : ℚ) ^ e ≠ 0 := by positivity
  have exact : q / 2 ^ e = m := by rw [same, mul_div_cancel_right₀ _ unit]
  refine rank_roundWithAccuracy_of_represents s (by rw [same]; positivity) ?_ ?_ long
  · rw [exact]
    exact represents_exact m
  · rw [targetExponent_eq positive, same]

end BoxTree.Scalar

import BoxTree.Proofs.Scalar.Sums

/-!
# Scalars in one place

Scalars that the sorting order has in one place differ at most in the sign of zero, or are both not
numbers. Only a division by them can tell such scalars apart.
-/

namespace BoxTree.Scalar
open Float.Model UnpackedFloat

def Alike (a b : Float32) : Prop := sortKey a = sortKey b

theorem sortKey_of_isNaN {x : Float32} (nan : x.isNaN = true) : sortKey x = 0x100000000 := by
  rw [sortKey, if_pos nan]

theorem eq_of_key {x y : Float32} (numberX : x.isNaN = false) (numberY : y.isNaN = false) (same : key x = key y)
    (nonzero : key x ≠ 0) : x = y := by
  have bits (z : Float32) (number : z.isNaN = false) : key z = signed z.toModel.toBits.toNat :=
    (unpack_canonical z.toModel.toBits.toBitVec).2 number
  rw [bits x numberX] at same nonzero
  rw [bits y numberY] at same
  have equal : x.toModel.toBits = y.toModel.toBits := by
    apply UInt32.toNat_inj.1
    unfold signed at same nonzero
    split_ifs at same nonzero <;> omega
  obtain ⟨⟨_, _⟩⟩ := x
  obtain ⟨⟨_, _⟩⟩ := y
  cases equal
  rfl

namespace Alike

variable {a b c d : Float32}

theorem refl (a : Float32) : Alike a a := rfl

theorem isNaN_eq (same : Alike a b) : a.isNaN = b.isNaN := by
  have bounds {x : Float32} (number : x.isNaN = false) : sortKey x < 0x100000000 :=
    (sortKey_bounds number).2.trans_lt (by rw [sortKey_infinity]; decide)
  rw [Alike] at same
  cases nanA : a.isNaN <;> cases nanB : b.isNaN
  · rfl
  · have := bounds nanA
    rw [sortKey_of_isNaN nanB] at same
    omega
  · have := bounds nanB
    rw [sortKey_of_isNaN nanA] at same
    omega
  · rfl

theorem le_iff_le (first : Alike a b) (second : Alike c d) : a ≤ c ↔ b ≤ d := by
  rw [le_iff, le_iff, first.isNaN_eq, second.isNaN_eq, show sortKey a = sortKey b from first,
    show sortKey c = sortKey d from second]

theorem lt_iff_lt (first : Alike a b) (second : Alike c d) : a < c ↔ b < d := by
  rw [lt_iff, lt_iff, first.isNaN_eq, second.isNaN_eq, show sortKey a = sortKey b from first,
    show sortKey c = sortKey d from second]

theorem max (first : Alike a b) (second : Alike c d) : Alike (maxNum a c) (maxNum b d) := by
  unfold maxNum
  rw [first.isNaN_eq]
  simp only [first.lt_iff_lt second]
  split
  · exact second
  · exact first

end Alike

/-! ## Unpacked numbers -/

def UnpackedAlike (u v : UnpackedFloat) : Prop := u = v ∨ ∃ s t, u = .zero s ∧ v = .zero t

namespace UnpackedAlike

variable {u v u' v' : UnpackedFloat}

theorem trans {w : UnpackedFloat} (first : UnpackedAlike u v) (second : UnpackedAlike v w) :
    UnpackedAlike u w := by
  rcases first with rfl | ⟨s, t, rfl, rfl⟩
  · exact second
  · rcases second with rfl | ⟨s', t', zero, rfl⟩
    · exact .inr ⟨s, t, rfl, rfl⟩
    · exact .inr ⟨s, t', rfl, rfl⟩

theorem neg (same : UnpackedAlike u v) : UnpackedAlike u.neg v.neg := by
  rcases same with rfl | ⟨s, t, rfl, rfl⟩
  · exact .inl rfl
  · exact .inr ⟨_, _, rfl, rfl⟩

theorem add (same : UnpackedAlike u v) (same' : UnpackedAlike u' v') :
    UnpackedAlike (.add .binary32 u u') (.add .binary32 v v') := by
  have zeros (s t : Sign) : ∃ r, UnpackedFloat.add .binary32 (.zero s) (.zero t) = .zero r := by
    cases s <;> cases t <;> exact ⟨_, rfl⟩
  rcases same with rfl | ⟨s, t, rfl, rfl⟩ <;> rcases same' with rfl | ⟨s', t', rfl, rfl⟩
  · exact .inl rfl
  · cases u with
    | zero r =>
        obtain ⟨p, left⟩ := zeros r s'
        obtain ⟨q, right⟩ := zeros r t'
        exact .inr ⟨p, q, left, right⟩
    | _ => exact .inl rfl
  · cases u' with
    | zero r =>
        obtain ⟨p, left⟩ := zeros s r
        obtain ⟨q, right⟩ := zeros t r
        exact .inr ⟨p, q, left, right⟩
    | _ => exact .inl rfl
  · obtain ⟨p, left⟩ := zeros s s'
    obtain ⟨q, right⟩ := zeros t t'
    exact .inr ⟨p, q, left, right⟩

theorem mul (same : UnpackedAlike u v) (same' : UnpackedAlike u' v') :
    UnpackedAlike (.mul .binary32 u u') (.mul .binary32 v v') := by
  rcases same with rfl | ⟨s, t, rfl, rfl⟩ <;> rcases same' with rfl | ⟨s', t', rfl, rfl⟩
  · exact .inl rfl
  · cases u with
    | zero r => exact .inr ⟨_, _, rfl, rfl⟩
    | finite r m e positive => exact .inr ⟨_, _, rfl, rfl⟩
    | _ => exact .inl rfl
  · cases u' with
    | zero r => exact .inr ⟨_, _, rfl, rfl⟩
    | finite r m e positive => exact .inr ⟨_, _, rfl, rfl⟩
    | _ => exact .inl rfl
  · exact .inr ⟨_, _, rfl, rfl⟩

theorem div (same : UnpackedAlike u v) (w : UnpackedFloat) :
    UnpackedAlike (.div .binary32 u w) (.div .binary32 v w) := by
  rcases same with rfl | ⟨s, t, rfl, rfl⟩
  · exact .inl rfl
  · cases w with
    | infinity r => exact .inr ⟨_, _, rfl, rfl⟩
    | finite r m e positive => exact .inr ⟨_, _, rfl, rfl⟩
    | _ => exact .inl rfl

theorem pack (same : UnpackedAlike u v) :
    UnpackedAlike (.unpack .binary32 (UnpackedFloat.pack .binary32 u))
      (.unpack .binary32 (UnpackedFloat.pack .binary32 v)) := by
  have zero (s : Sign) :
      UnpackedFloat.unpack .binary32 (UnpackedFloat.pack .binary32 (.zero s)) = .zero s := by
    cases s <;> rfl
  rcases same with rfl | ⟨s, t, rfl, rfl⟩
  · exact .inl rfl
  · exact .inr ⟨s, t, zero s, zero t⟩

end UnpackedAlike

theorem unpackedAlike_pack {u : UnpackedFloat} (canonical : Canonical u) :
    UnpackedAlike (.unpack .binary32 (UnpackedFloat.pack .binary32 u)) u := by
  cases nan : u.isNaN with
  | true =>
      cases u with
      | notANumber => exact .inl rfl
      | _ => cases nan
  | false =>
      have normalized := normalized_of_canonical canonical
      refine rank_inj (unpack_canonical _).1 canonical (isNaN_unpack_pack normalized nan) nan ?_
      rw [rank_unpack_pack normalized nan, clamp_rank canonical]

/-! ## Arithmetic -/

theorem alike_iff_unpack {a b : Float32} :
    Alike a b ↔ UnpackedAlike a.toModel.unpack b.toModel.unpack := by
  constructor
  · intro same
    cases nan : a.isNaN with
    | true =>
        rw [unpack_of_isNaN nan, unpack_of_isNaN (same.isNaN_eq.symm.trans nan)]
        exact .inl rfl
    | false =>
        have number := same.isNaN_eq.symm.trans nan
        refine rank_inj (canonical_unpack a) (canonical_unpack b) nan number ?_
        change key a = key b
        rw [key_eq_sortKey nan, key_eq_sortKey number, show sortKey a = sortKey b from same]
  · intro same
    have nans : a.isNaN = b.isNaN := by
      change a.toModel.unpack.isNaN = b.toModel.unpack.isNaN
      rcases same with same | ⟨s, t, zeroA, zeroB⟩
      · rw [same]
      · rw [zeroA, zeroB]
        rfl
    have keys : key a = key b := by
      rcases same with same | ⟨s, t, zeroA, zeroB⟩
      · rw [key, key, same]
      · rw [key, key, zeroA, zeroB]
        rfl
    cases nan : a.isNaN with
    | true => exact (sortKey_of_isNaN nan).trans (sortKey_of_isNaN (nans.symm.trans nan)).symm
    | false =>
        rw [key_eq_sortKey nan, key_eq_sortKey (nans.symm.trans nan)] at keys
        rw [Alike]
        omega

namespace Alike

variable {a b c d : Float32}

theorem add (first : Alike a b) (second : Alike c d) : Alike (a + c) (b + d) :=
  alike_iff_unpack.2 ((alike_iff_unpack.1 first).add (alike_iff_unpack.1 second)).pack

theorem sub (first : Alike a b) (second : Alike c d) : Alike (a - c) (b - d) := by
  have sums := (alike_iff_unpack.1 first).add (alike_iff_unpack.1 second).neg
  rw [← sub_eq_add, ← sub_eq_add] at sums
  exact alike_iff_unpack.2 sums.pack

theorem mul (first : Alike a b) (second : Alike c d) : Alike (a * c) (b * d) :=
  alike_iff_unpack.2 ((alike_iff_unpack.1 first).mul (alike_iff_unpack.1 second)).pack

theorem div (same : Alike a b) (c : Float32) : Alike (a / c) (b / c) :=
  alike_iff_unpack.2 ((alike_iff_unpack.1 same).div c.toModel.unpack).pack

end Alike

end BoxTree.Scalar

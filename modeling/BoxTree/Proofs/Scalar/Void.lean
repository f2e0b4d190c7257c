import BoxTree.Proofs.Scalar.Alike

/-!
# Void scalars

What is zero or not a number stays so in a product, whatever the other factor is, and in a sum of two such
numbers. Opposite numbers have such a sum as well.
-/

namespace BoxTree.Scalar
open Float.Model UnpackedFloat

/-- Zero, or not a number. -/
def Void (x : Float32) : Prop := (x == 0) = true ∨ x.isNaN = true

/-! ## Unpacked numbers -/

theorem neg_neg_unpacked (u : UnpackedFloat) : u.neg.neg = u := by
  cases u with
  | notANumber => rfl
  | infinity s => cases s <;> rfl
  | zero s => cases s <;> rfl
  | finite s m e positive => cases s <;> rfl

def UnpackedVoid (u : UnpackedFloat) : Prop := u = .notANumber ∨ ∃ s, u = .zero s

namespace UnpackedVoid

variable {u v : UnpackedFloat}

theorem of_alike (void : UnpackedVoid v) (same : UnpackedAlike u v) : UnpackedVoid u := by
  rcases same with rfl | ⟨s, t, rfl, rfl⟩
  · exact void
  · exact .inr ⟨s, rfl⟩

theorem neg (void : UnpackedVoid u) : UnpackedVoid u.neg := by
  rcases void with rfl | ⟨s, rfl⟩
  · exact .inl rfl
  · exact .inr ⟨_, rfl⟩

theorem add (void : UnpackedVoid u) (void' : UnpackedVoid v) : UnpackedVoid (.add .binary32 u v) := by
  rcases void with rfl | ⟨s, rfl⟩
  · exact .inl rfl
  · rcases void' with rfl | ⟨t, rfl⟩
    · exact .inl rfl
    · cases s <;> cases t <;> exact .inr ⟨_, rfl⟩

theorem add_left (void : UnpackedVoid u) (v : UnpackedFloat) :
    UnpackedFloat.add .binary32 u v = .notANumber ∨ UnpackedAlike (.add .binary32 u v) v := by
  rcases void with rfl | ⟨s, rfl⟩
  · exact .inl rfl
  · cases v with
    | zero t => cases s <;> cases t <;> exact .inr (.inr ⟨_, _, rfl, rfl⟩)
    | _ => exact .inr (.inl rfl)

theorem add_right (void : UnpackedVoid v) (u : UnpackedFloat) :
    UnpackedFloat.add .binary32 u v = .notANumber ∨ UnpackedAlike (.add .binary32 u v) u := by
  rcases void with rfl | ⟨s, rfl⟩
  · cases u <;> exact .inl rfl
  · cases u with
    | zero t => cases s <;> cases t <;> exact .inr (.inr ⟨_, _, rfl, rfl⟩)
    | _ => exact .inr (.inl rfl)

theorem mul (void : UnpackedVoid u) (v : UnpackedFloat) : UnpackedVoid (.mul .binary32 u v) := by
  rcases void with rfl | ⟨s, rfl⟩
  · exact .inl rfl
  · cases v with
    | zero t => exact .inr ⟨_, rfl⟩
    | finite t m e positive => exact .inr ⟨_, rfl⟩
    | _ => exact .inl rfl

theorem mul_right (void : UnpackedVoid v) (u : UnpackedFloat) : UnpackedVoid (.mul .binary32 u v) := by
  rcases void with rfl | ⟨s, rfl⟩
  · cases u <;> exact .inl rfl
  · cases u with
    | zero t => exact .inr ⟨_, rfl⟩
    | finite t m e positive => exact .inr ⟨_, rfl⟩
    | _ => exact .inl rfl

theorem sub_self (u : UnpackedFloat) : UnpackedVoid (.sub .binary32 u u) := by
  cases u with
  | notANumber => exact .inl rfl
  | infinity s => cases s <;> exact .inl rfl
  | zero s => cases s <;> exact .inr ⟨_, rfl⟩
  | finite s m e positive =>
      simp only [UnpackedFloat.sub, Int.sub_self, UnpackedFloat.normalize]
      exact .inr ⟨_, rfl⟩

theorem pack (void : UnpackedVoid u) :
    UnpackedVoid (.unpack .binary32 (UnpackedFloat.pack .binary32 u)) := by
  rcases void with rfl | ⟨s, rfl⟩
  · exact .inl rfl
  · cases s <;> exact .inr ⟨_, rfl⟩

end UnpackedVoid

/-! ## Scalars -/

theorem void_iff_unpack {x : Float32} : Void x ↔ UnpackedVoid x.toModel.unpack := by
  have zero : (0 : Float32).isNaN = false ∧ key 0 = 0 := ⟨rfl, rfl⟩
  constructor
  · rintro (zeroX | nan)
    · obtain ⟨number, _, keys⟩ := beq_iff_key.1 zeroX
      rcases rank_inj (canonical_unpack x) (canonical_unpack 0) number zero.1 keys with
        same | ⟨s, _, same, _⟩
      · exact .inr ⟨_, same⟩
      · exact .inr ⟨s, same⟩
    · exact .inl (unpack_of_isNaN nan)
  · rintro (nan | ⟨s, shape⟩)
    · exact .inr (congrArg UnpackedFloat.isNaN nan)
    · refine .inl (beq_iff_key.2 ⟨congrArg UnpackedFloat.isNaN shape, zero.1, ?_⟩)
      rw [key, shape, zero.2]
      rfl

theorem isNaN_of_pack {x : Float32} {u : UnpackedFloat}
    (shape : x.toModel.unpack = .unpack .binary32 (UnpackedFloat.pack .binary32 u))
    (nan : u = .notANumber) : x.isNaN = true := by
  rw [nan] at shape
  exact congrArg UnpackedFloat.isNaN shape

theorem isNaN_add_of_isNaN {x : Float32} (nan : x.isNaN = true) (y : Float32) : (x + y).isNaN = true := by
  have sum : UnpackedFloat.add .binary32 x.toModel.unpack y.toModel.unpack = .notANumber := by
    rw [unpack_of_isNaN nan]
    rfl
  exact isNaN_of_pack rfl sum

theorem isNaN_sub_of_isNaN {x : Float32} (nan : x.isNaN = true) (y : Float32) : (x - y).isNaN = true := by
  have difference : UnpackedFloat.sub .binary32 x.toModel.unpack y.toModel.unpack = .notANumber := by
    rw [unpack_of_isNaN nan]
    rfl
  exact isNaN_of_pack rfl difference

theorem void_div_infinity {y : Float32} {s : Sign} (x : Float32)
    (infinite : y.toModel.unpack = .infinity s) : Void (x / y) := by
  have quotient : UnpackedVoid (.div .binary32 x.toModel.unpack y.toModel.unpack) := by
    rw [infinite]
    cases x.toModel.unpack with
    | notANumber => exact .inl rfl
    | infinity t => exact .inl rfl
    | zero t => exact .inr ⟨_, rfl⟩
    | finite t m e positive => exact .inr ⟨_, rfl⟩
  exact void_iff_unpack.2 quotient.pack

namespace Void

variable {x y z : Float32}

theorem not_neg (void : Void x) : ¬x < 0 := by
  rcases void with zero | nan
  · exact fun below => (lt_iff_key.1 below).2.2.ne (beq_iff_key.1 zero).2.2
  · exact not_lt_of_isNaN (.inl nan)

theorem of_alike (void : Void y) (same : Alike x y) : Void x :=
  void_iff_unpack.2 ((void_iff_unpack.1 void).of_alike (alike_iff_unpack.1 same))

theorem add (void : Void x) (void' : Void y) : Void (x + y) :=
  void_iff_unpack.2 ((void_iff_unpack.1 void).add (void_iff_unpack.1 void')).pack

theorem sub (void : Void x) (void' : Void y) : Void (x - y) := by
  have sum := (void_iff_unpack.1 void).add (void_iff_unpack.1 void').neg
  rw [← sub_eq_add] at sum
  exact void_iff_unpack.2 sum.pack

theorem mul (void : Void x) (y : Float32) : Void (x * y) :=
  void_iff_unpack.2 ((void_iff_unpack.1 void).mul y.toModel.unpack).pack

theorem mul_right (void : Void y) (x : Float32) : Void (x * y) :=
  void_iff_unpack.2 ((void_iff_unpack.1 void).mul_right x.toModel.unpack).pack

theorem add_left (void : Void x) (y : Float32) : (x + y).isNaN = true ∨ Alike (x + y) y := by
  rcases (void_iff_unpack.1 void).add_left y.toModel.unpack with nan | same
  · exact .inl (isNaN_of_pack rfl nan)
  · exact .inr (alike_iff_unpack.2 (same.pack.trans (unpackedAlike_pack (canonical_unpack y))))

theorem add_right (void : Void y) (x : Float32) : (x + y).isNaN = true ∨ Alike (x + y) x := by
  rcases (void_iff_unpack.1 void).add_right x.toModel.unpack with nan | same
  · exact .inl (isNaN_of_pack rfl nan)
  · exact .inr (alike_iff_unpack.2 (same.pack.trans (unpackedAlike_pack (canonical_unpack x))))

theorem add_opposite (numberX : x.isNaN = false) (numberY : y.isNaN = false) (opposite : key x = -key y) :
    Void (x + y) := by
  obtain ⟨canonical, sameNaN, turned⟩ := neg_spec (canonical_unpack y)
  have same : UnpackedAlike x.toModel.unpack y.toModel.unpack.neg :=
    rank_inj (canonical_unpack x) canonical numberX (sameNaN.trans numberY) (opposite.trans turned.symm)
  have rest := UnpackedVoid.sub_self y.toModel.unpack.neg
  rw [sub_eq_add, neg_neg_unpacked] at rest
  exact void_iff_unpack.2 (rest.of_alike (same.add (.inl rfl))).pack

/-- Three numbers of which one is void and the other two cancel have a void sum in each order. -/
theorem add_add (void : Void x) (pair : Void (y + z)) :
    Void (x + y + z) ∧ Void (y + x + z) ∧ Void (y + z + x) := by
  have of_isNaN {w : Float32} (nan : w.isNaN = true) : Void (w + z) := .inr (isNaN_add_of_isNaN nan z)
  refine ⟨?_, ?_, pair.add void⟩
  · rcases void.add_left y with nan | same
    · exact of_isNaN nan
    · exact pair.of_alike (same.add (.refl z))
  · rcases void.add_right y with nan | same
    · exact of_isNaN nan
    · exact pair.of_alike (same.add (.refl z))

end Void

end BoxTree.Scalar

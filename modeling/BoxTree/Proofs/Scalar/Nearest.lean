import BoxTree.Proofs.Scalar.Error

/-!
# Nearest numbers

What a value is rounded to is the finite number nearest to it. Of two that are equally near it is the one
with a zero as its last bit.
-/

namespace BoxTree.Scalar
open Float.Model UnpackedFloat

variable {x y : Float32} {q t : ℚ}

/-- No finite number is nearer to a value, and none is as near if the last bit is not zero. -/
structure Nearest (x : Float32) (q : ℚ) : Prop where
  finite : x.isFinite = true
  least : ∀ y : Float32, y.isFinite = true → |value x - q| ≤ |value y - q|
  even : ∀ y : Float32, y.isFinite = true → value y ≠ value x → |value y - q| = |value x - q| →
    x.toBits.toNat % 2 = 0

/-! ## Nearest integers -/

section

variable (positive : 0 < q) (finite : x.isFinite = true) (placed : key x = rounded q)

include positive finite placed

end

end BoxTree.Scalar

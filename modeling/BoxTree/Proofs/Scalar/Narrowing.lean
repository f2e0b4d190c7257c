import BoxTree.Proofs.Scalar.Nearest
import BoxTree.Proofs.Scalar.Signs
import BoxTree.Scalar.Rounding

/-!
# From double to single precision

The conversion from double to single precision gives the nearest number, and an infinity from halfway between
the largest number and the next power of two on. It keeps the sign, the infinities and what is not a number.
-/

namespace BoxTree.Scalar
open Float.Model UnpackedFloat

def Dyadic.value (d : Dyadic) : ℚ := d.mantissa * 2 ^ d.exponent

/-- Halfway between the largest number and the next power of two. -/
def overflow : ℚ := 2 ^ 128 - 2 ^ 103

variable {num den : ℕ}

section

variable {x : Float32} {q : ℚ} {negative : Bool} (nonneg : 0 ≤ q)
  (bits : (x.toBits.toNat : ℤ) = place q + if negative then 0x80000000 else 0)

include bits

include nonneg

end

end BoxTree.Scalar

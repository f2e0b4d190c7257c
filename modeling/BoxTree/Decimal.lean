/-!
# Decimals

Numbers written in base ten.
-/

namespace BoxTree

/-- The decimal number `significand * 10 ^ exponent`. -/
structure Decimal where
  significand : Nat
  exponent : Int

namespace Decimal

def tenTo (k : Nat) : Nat := Nat.pow 10 k

def digitCount (n : Nat) : Nat := (Nat.toDigits 10 n).length

end Decimal

end BoxTree

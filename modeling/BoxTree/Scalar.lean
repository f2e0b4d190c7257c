/-!
# Scalars

Single precision numbers: comparisons that ignore what is not a number, the order used for sorting,
and the conversions to and from counts.
-/

namespace BoxTree.Scalar

def infinity : Float32 := Float32.ofBits 0x7f800000

def negativeInfinity : Float32 := Float32.ofBits 0xff800000

def largest : Float32 := Float32.ofBits 0x7f7fffff

def epsilon : Float32 := Float32.ofBits 0x34000000

/-- The sign bit, set for negative zero too. -/
def isNegative (x : Float32) : Bool := x.toBits >>> 31 == 1

/-- The smaller number, or the other operand where one is not a number. -/
def minNum (a b : Float32) : Float32 := if a.isNaN || b < a then b else a

/-- The larger number, or the other operand where one is not a number. -/
def maxNum (a b : Float32) : Float32 := if a.isNaN || a < b then b else a

def farSlack : Float32 := 4 * epsilon

/-- Moves a far distance away by `farSlack`, so that rounding in the slab test never rejects a box
that the ray touches. Infinities stay. -/
def widenFar (t : Float32) : Float32 :=
  if t > 0 then t * (1 + farSlack) else t * (1 - farSlack)

/-- Place of a number in the sorting order: both zeros are equal, and everything that is not a
number comes last, in one place. -/
def sortKey (x : Float32) : Nat :=
  let bits := x.toBits.toNat
  if x.isNaN then 0x100000000
  else if bits < 0x80000000 then 0x80000000 + bits
  else 0x80000000 - (bits - 0x80000000)

def ofCount (n : Nat) : Float32 := n.toUInt64.toFloat32

/-- The integer part of a number within the range of 64 bits, zero for negative numbers and for
what is not a number. -/
def truncate (x : Float32) : Nat := x.toUInt64.toNat

end BoxTree.Scalar

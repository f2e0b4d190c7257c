import BoxTree.Scalar

/-!
# Rounding of exact values

Rounds an exact fraction to the nearest number of a binary format, ties to even. Decimals read from
text and roots go through here.
-/

namespace BoxTree.Scalar

def divNearest (num den : Nat) : Nat :=
  let q := num / den
  let twice := 2 * (num % den)
  if twice < den then q
  else if den < twice then q + 1
  else q + q % 2

structure Dyadic where
  mantissa : Nat
  exponent : Int

/-- A binary floating point format without an upper limit. -/
structure BinaryFormat where
  precision : Nat
  leastExponent : Int

def single : BinaryFormat := ⟨24, -149⟩

def double : BinaryFormat := ⟨53, -1074⟩

def Dyadic.fraction (d : Dyadic) : Nat × Nat :=
  if 0 ≤ d.exponent then (d.mantissa <<< d.exponent.toNat, 1)
  else (d.mantissa, 1 <<< (-d.exponent).toNat)

def floorLog2 (num den : Nat) : Int :=
  let k : Int := (num.log2 : Int) - den.log2
  if 0 ≤ k then
    if den <<< k.toNat ≤ num then k else k - 1
  else
    if den ≤ num <<< (-k).toNat then k else k - 1

/-- The number of the format nearest to a fraction. Its mantissa has at most one bit too many, and
then all other bits are zero. -/
def BinaryFormat.round (f : BinaryFormat) (num den : Nat) : Dyadic :=
  if num = 0 then ⟨0, f.leastExponent⟩
  else
    let exponent := max f.leastExponent (floorLog2 num den + 1 - f.precision)
    if 0 ≤ exponent then ⟨divNearest num (den <<< exponent.toNat), exponent⟩
    else ⟨divNearest (num <<< (-exponent).toNat) den, exponent⟩

/-- The single precision number with the value of a rounded dyadic number. Mantissa and exponent
field add up, so that a carry out of the mantissa moves into the exponent. -/
def ofDyadic (negative : Bool) (d : Dyadic) : Float32 :=
  let magnitude := min ((d.exponent - single.leastExponent).toNat <<< 23 + d.mantissa) 0x7f800000
  Float32.ofBits (magnitude + if negative then 0x80000000 else 0).toUInt32

def toDyadic (x : Float32) : Dyadic :=
  let bits := x.toBits.toNat % 0x80000000
  let field : Nat := bits / 0x800000
  let rest : Nat := bits % 0x800000
  if field = 0 then ⟨rest, single.leastExponent⟩
  else ⟨rest + 0x800000, (field : Int) - 150⟩

/-- A number in double precision, without an upper limit. -/
inductive Double where
  | notANumber
  | infinite (negative : Bool)
  | finite (negative : Bool) (magnitude : Dyadic)

def Double.toSingle : Double → Float32
  | notANumber => 0 / 0
  | infinite negative => if negative then negativeInfinity else infinity
  | finite negative magnitude =>
    let (num, den) := magnitude.fraction
    ofDyadic negative (single.round num den)

def cubeRootFrom (n : Nat) : (bits root : Nat) → Nat
  | 0, root => root
  | bits + 1, root =>
    let next := root + 1 <<< bits
    cubeRootFrom n bits (if next * next * next ≤ n then next else root)

/-- The cube root of a count, correctly rounded. The root is taken with 40 fractional bits, and one
more bit tells whether anything was cut off. -/
def cubeRootOfCount (n : Nat) : Float32 :=
  let (num, den) := (toDyadic (ofCount n)).fraction
  let scaled := num <<< 120 / den
  let root := cubeRootFrom scaled 64 0
  let sticky := if root * root * root = scaled then 0 else 1
  ofDyadic false (single.round (2 * root + sticky) (1 <<< 41))

end BoxTree.Scalar

import BoxTree.Decimal
import BoxTree.Scalar.Rounding

/-!
# Shortest decimals

The fewest decimal digits that read back as a given number, and of those the nearest to it.
-/

namespace BoxTree.Decimal
open Scalar

def firstPower (num den : Nat) : (tries start : Nat) → Nat
  | 0, start => start
  | tries + 1, start =>
    if den ≤ num * tenTo start then start else firstPower num den tries (start + 1)

def floorLog10 (num den : Nat) : Int :=
  if den ≤ num then (digitCount (num / den) : Int) - 1
  else -(firstPower num den (digitCount den) 1 : Int)

structure Cell where
  low : Nat
  value : Nat
  high : Nat
  den : Nat
  /-- Whether the ends themselves round to the number. -/
  closed : Bool

/-- The cell of a positive finite number. The gap below a power of two is half as wide as the one
above it, unless the number has the least exponent. -/
def Cell.of (x : Float32) : Cell :=
  let d := toDyadic x
  let below := if d.mantissa = 0x800000 ∧ single.leastExponent < d.exponent then 1 else 2
  let (scale, den) := (Dyadic.mk 1 (d.exponent - 2)).fraction
  { low := (4 * d.mantissa - below) * scale
    value := 4 * d.mantissa * scale
    high := (4 * d.mantissa + 2) * scale
    den := den
    closed := d.mantissa % 2 = 0 }

def Cell.contains (c : Cell) (point : Nat) : Bool :=
  if c.closed then c.low ≤ point && point ≤ c.high else c.low < point && point < c.high

def Cell.scale (c : Cell) (factor : Nat) : Cell :=
  { c with low := c.low * factor, value := c.value * factor, high := c.high * factor }

/-- The point of the grid of multiples of `10 ^ exponent` that lies in the cell. Of two such points
it is the nearer one, and the upper one if both are equally near. -/
def Cell.gridPoint? (c : Cell) (exponent : Int) : Option Nat :=
  let c' := c.scale (tenTo (-exponent).toNat)
  let step := c.den * tenTo exponent.toNat
  let lower := c'.value / step
  match c'.contains (lower * step), c'.contains ((lower + 1) * step) with
  | true, true =>
    if c'.value - lower * step < (lower + 1) * step - c'.value then some lower else some (lower + 1)
  | true, false => some lower
  | false, true => some (lower + 1)
  | false, false => none

def Cell.coarsest (c : Cell) : (tries : Nat) → (exponent : Int) → Decimal
  | 0, exponent => ⟨c.value * tenTo (-exponent).toNat / (c.den * tenTo exponent.toNat), exponent⟩
  | tries + 1, exponent =>
    match c.gridPoint? exponent with
    | some significand => ⟨significand, exponent⟩
    | none => c.coarsest tries (exponent - 1)

def trim : (tries : Nat) → Decimal → Decimal
  | 0, d => d
  | tries + 1, d =>
    if d.significand % 10 = 0 ∧ d.significand ≠ 0 then
      trim tries ⟨d.significand / 10, d.exponent + 1⟩
    else d

def shortest (x : Float32) : Decimal :=
  let c := Cell.of x
  trim 9 (c.coarsest 9 (floorLog10 c.value c.den))

end BoxTree.Decimal

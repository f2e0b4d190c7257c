import BoxTree.Decimal
import BoxTree.Scalar.Rounding

/-!
# Reading decimals

Reads a number written in decimal, in double precision.
-/

namespace BoxTree.Decimal
open Scalar

/-- The value of a decimal. Far outside of the range of doubles it is infinite or zero, without
evaluating the power of ten. -/
def toDouble (negative : Bool) (d : Decimal) : Double :=
  let leading := digitCount d.significand + d.exponent
  if d.significand = 0 ∨ leading < -400 then .finite negative ⟨0, double.leastExponent⟩
  else if 400 < leading then .infinite negative
  else
    .finite negative
      (double.round (d.significand * tenTo d.exponent.toNat) (tenTo (-d.exponent).toNat))

def ofDigits (digits : List Char) : Nat :=
  digits.foldl (fun value c => 10 * value + (c.toNat - '0'.toNat)) 0

def splitSign : List Char → Bool × List Char
  | '-' :: rest => (true, rest)
  | '+' :: rest => (false, rest)
  | rest => (false, rest)

def exponent? : List Char → Option Int
  | [] => some 0
  | mark :: rest =>
    let (negative, digits) := splitSign rest
    if (mark = 'e' ∨ mark = 'E') ∧ digits ≠ [] ∧ digits.all Char.isDigit then
      some (if negative then -(ofDigits digits : Int) else ofDigits digits)
    else none

def named? (negative : Bool) (word : List Char) : Option Double :=
  match String.ofList (word.map Char.toLower) with
  | "inf" | "infinity" => some (.infinite negative)
  | "nan" => some .notANumber
  | _ => none

def unsigned? (word : List Char) : Option Decimal :=
  let whole := word.takeWhile Char.isDigit
  let (fraction, rest) :=
    match word.dropWhile Char.isDigit with
    | '.' :: rest => (rest.takeWhile Char.isDigit, rest.dropWhile Char.isDigit)
    | rest => ([], rest)
  if whole = [] ∧ fraction = [] then none
  else (exponent? rest).map fun power => ⟨ofDigits (whole ++ fraction), power - fraction.length⟩

def read? (word : List Char) : Option Double :=
  let (negative, body) := splitSign word
  named? negative body <|> (unsigned? body).map (toDouble negative)

end BoxTree.Decimal

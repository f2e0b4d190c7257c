import BoxTree.Decimal
import BoxTree.Scalar.Rounding

/-!
# Decimal places

Values written with a fixed number of digits after the point. A half is rounded to the even digit.
-/

namespace BoxTree

def Decimal.fixed (places num den : Nat) : String :=
  let units := Scalar.divNearest (num * tenTo places) den
  let digits := toString (units % tenTo places)
  toString (units / tenTo places) ++ "." ++
    String.ofList (List.replicate (places - digits.length) '0') ++ digits

def fixedText (places : Nat) (x : Float32) : String :=
  if x.isNaN then "NaN"
  else
    let magnitude :=
      if x.isInf then "inf"
      else
        let (num, den) := (Scalar.toDyadic x).fraction
        Decimal.fixed places num den
    if Scalar.isNegative x then "-" ++ magnitude else magnitude

end BoxTree

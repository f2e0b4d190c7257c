import BoxTree.Decimal.Shortest

/-!
# Number styles

Numbers written with the fewest digits that read back, plainly or with a power of ten.
-/

namespace BoxTree

structure NumberStyle where
  /-- Least decimal exponent of a number written without an exponent. -/
  leastPlain : Int
  /-- Largest decimal exponent of a number written without an exponent. -/
  mostPlain : Int
  wholeEnd : String
  zero : String
  infinite : String
  notANumber : String

namespace NumberStyle

def plain (s : NumberStyle) (d : Decimal) : String :=
  let digits := toString d.significand
  if 0 ≤ d.exponent then digits ++ String.ofList (List.replicate d.exponent.toNat '0') ++ s.wholeEnd
  else
    let places := (-d.exponent).toNat
    let padded := List.replicate (places + 1 - digits.length) '0' ++ digits.toList
    String.ofList (padded.take (padded.length - places)) ++ "." ++
      String.ofList (padded.drop (padded.length - places))

def scientific (d : Decimal) : String :=
  let digits := toString d.significand
  let power := d.exponent + digits.length - 1
  let pointed :=
    match digits.toList with
    | first :: second :: rest => first :: '.' :: second :: rest
    | short => short
  String.ofList pointed ++ "e" ++ toString power

def text (s : NumberStyle) (x : Float32) : String :=
  if x.isNaN then s.notANumber
  else if x == 0 then s.zero
  else
    let magnitude :=
      if x.isInf then s.infinite
      else
        let d := Decimal.shortest x
        let leading := d.exponent + Decimal.digitCount d.significand - 1
        if s.leastPlain ≤ leading ∧ leading ≤ s.mostPlain then s.plain d else scientific d
    if Scalar.isNegative x then "-" ++ magnitude else magnitude

end NumberStyle

end BoxTree

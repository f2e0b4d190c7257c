/-!
# Sets of bit positions

The set bits of a word, walked from the lowest one up.
-/

namespace BoxTree.BitSet

def count (bits : UInt32) : Nat := (List.range 32).countP bits.toNat.testBit

def lowest? (bits : UInt32) : Option (Nat × UInt32) :=
  ((List.range 32).find? bits.toNat.testBit).map fun position => (position, bits &&& (bits - 1))

def take : (rounds : Nat) → UInt32 → List (Nat × UInt32)
  | 0, _ => []
  | rounds + 1, bits =>
    match lowest? bits with
    | none => []
    | some (position, rest) => (position, rest) :: take rounds rest

/-- All set bits from the lowest up, each with the bits that remain after it. A word has 32 bits. -/
def walk (bits : UInt32) : List (Nat × UInt32) := take 32 bits

def positions (bits : UInt32) : List Nat := (walk bits).map (·.1)

end BoxTree.BitSet

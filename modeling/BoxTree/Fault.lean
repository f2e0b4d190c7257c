/-!
# Faults

The conditions on which an operation stops instead of answering. A fault is a mistake of the caller
or a broken structure, as opposed to a refused request, which has an error type of its own.
-/

namespace BoxTree

inductive Fault where
  | zeroDirection
  | emptyLeaf
  | tooManyBatches (count : Nat)
  | batchIndexTooLarge
  | nodeIndexTooLarge
  | leafDoesNotFit (triangles : Nat)
  | rootNotFirst
  | leafRootWithNodes
  | stackOverflow
  | outOfBounds
  | indexOverflow
  | unevenPartition
  | emptyRange
  | unboundedRange
  | outOfWords
  | lostTask
  /-- A walk along links did not come to an end. -/
  | endless
deriving DecidableEq

def Fault.message? : Fault → Option String
  | zeroDirection => some "Ray direction must be non-zero"
  | emptyLeaf => some "Leaf must have at least one batch"
  | tooManyBatches count => some s!"Leaf with {count} batches exceeds 15"
  | batchIndexTooLarge => some "Batch index out of range"
  | nodeIndexTooLarge => some "Node index out of range"
  | leafDoesNotFit triangles => some s!"Leaf with {triangles} triangles doesn't fit into 15 batches"
  | rootNotFirst => some "Root must be the first allocated node"
  | leafRootWithNodes => some "Leaf root with allocated nodes"
  | stackOverflow => some "Traversal stack overflow, tree is deeper than 63"
  | _ => none

/-- A fault that stopped a change of a value half way, with the value as it was left. -/
structure Interrupted (σ : Type) where
  cause : Fault
  left : σ

end BoxTree

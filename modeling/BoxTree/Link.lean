import BoxTree.Fault
import BoxTree.Limits

/-!
# Links

References from a node to a child, packed into a word: the low four bits count the batches of a
leaf, zero meaning an inner node, and the other bits hold the index of the node or of the first
batch. The largest index with a count of zero stands for a missing child.
-/

namespace BoxTree

structure BatchRange where
  first : Nat
  count : Nat
deriving DecidableEq

namespace BatchRange

def stop (r : BatchRange) : Nat := r.first + r.count

def toList (r : BatchRange) : List Nat := List.range' r.first r.count

end BatchRange

inductive Target where
  | missing
  | inner (node : Nat)
  | leaf (batches : BatchRange)
deriving DecidableEq

structure Link where
  raw : UInt32
deriving DecidableEq

namespace Link

def missing : Link := ⟨0xfffffff0⟩

def toInner (node : Nat) : Except Fault Link :=
  if node ≤ maxIndex then .ok ⟨node.toUInt32 <<< 4⟩ else .error .nodeIndexTooLarge

def toLeaf (batches : BatchRange) : Except Fault Link :=
  if batches.count = 0 then .error .emptyLeaf
  else if maxLeafBatches < batches.count then .error (.tooManyBatches batches.count)
  else if maxIndex < batches.first then .error .batchIndexTooLarge
  else .ok ⟨batches.first.toUInt32 <<< 4 ||| batches.count.toUInt32⟩

def isMissing (link : Link) : Bool := link == missing

def target (link : Link) : Target :=
  if link.isMissing then .missing
  else
    let count := link.raw &&& 15
    let index := (link.raw >>> 4).toNat
    if count = 0 then .inner index else .leaf ⟨index, count.toNat⟩

/-- An index moved by an offset, within the range of links. Offsets are words of 64 bits, so one near
the largest word moves the index down. -/
def shift (index offset : Nat) : Except Fault Nat :=
  let moved := (index + offset) % 0x10000000000000000
  if moved ≤ maxIndex then .ok moved else .error .indexOverflow

def rebase (link : Link) (nodes batches : Nat) : Except Fault Link :=
  match link.target with
  | .missing => .ok link
  | .inner node => do toInner (← shift node nodes)
  | .leaf range => do toLeaf ⟨← shift range.first batches, range.count⟩

def description (link : Link) : String :=
  let target :=
    match link.target with
    | .missing => "Empty"
    | .inner node => "Inner \x7b index: " ++ toString node ++ " \x7d"
    | .leaf range =>
      "Leaf \x7b batches: BatchRange \x7b first: " ++ toString range.first ++ ", count: " ++
        toString range.count ++ " \x7d \x7d"
  "ChildLink \x7b 0: " ++ toString link.raw.toNat ++ ", <decoded>: " ++ target ++ " \x7d"

end Link

end BoxTree

import BoxTree.Node
import BoxTree.Statistics

/-!
# Arenas

The nodes and leaves of a tree while it is built, or of a part of it. Parts built on their own are
appended to each other, which moves their links.
-/

namespace BoxTree

abbrev Batch := Lanes Nat

structure Arena where
  nodes : Array Node := #[]
  batches : Array Batch := #[]
  statistics : BuildStatistics := {}

namespace Arena

def pushNode (a : Arena) (node : Node) : Except Fault (Nat × Arena) :=
  if a.nodes.size ≤ maxIndex then .ok (a.nodes.size, { a with nodes := a.nodes.push node })
  else .error .indexOverflow

def setNode (a : Arena) (index : Nat) (node : Node) : Arena :=
  { a with nodes := a.nodes.setIfInBounds index node }

def setLink (a : Arena) (index : Nat) (side : Side) (link : Link) : Except Fault Arena :=
  match a.nodes[index]? with
  | some node => .ok (a.setNode index (node.setLink side link))
  | none => .error .outOfBounds

/-- Cuts triangles into batches. The last batch is filled up with the last triangle. -/
def pack : List Nat → List Batch
  | [] => []
  | [a] => [⟨a, a, a, a⟩]
  | [a, b] => [⟨a, b, b, b⟩]
  | [a, b, c] => [⟨a, b, c, c⟩]
  | a :: b :: c :: d :: rest => ⟨a, b, c, d⟩ :: pack rest

def pushBatches (a : Arena) : List Batch → Except (Interrupted Arena) Arena
  | [] => .ok a
  | batch :: rest =>
    if a.batches.size ≤ maxIndex then
      pushBatches { a with batches := a.batches.push batch } rest
    else .error ⟨.indexOverflow, a⟩

/-- Stores triangles as a leaf and answers the link to it. A fault leaves the batches that were added
before it. -/
def storeLeaf (a : Arena) (triangles : List Nat) (depth : Nat) (reason : LeafReason) :
    Except (Interrupted Arena) (Link × Arena) := do
  let count := batchesFor triangles.length
  if count = 0 ∨ maxLeafBatches < count then throw ⟨.leafDoesNotFit triangles.length, a⟩
  let first := a.batches.size
  if maxIndex < first then throw ⟨.indexOverflow, a⟩
  let stored ← a.pushBatches (pack triangles)
  let counted := { stored with
    statistics := stored.statistics.recordLeaf depth triangles.length reason }
  match Link.toLeaf ⟨first, count⟩ with
  | .ok link => return (link, counted)
  | .error cause => throw ⟨cause, counted⟩

def addLeaf (a : Arena) (triangles : List Nat) (depth : Nat) (reason : LeafReason) :
    Except Fault (Link × Arena) :=
  (a.storeLeaf triangles depth reason).mapError (·.cause)

def rebaseNode (nodes batches : Nat) (node : Node) : Except Fault Node := do
  let left ← node.left.link.rebase nodes batches
  let right ← node.right.link.rebase nodes batches
  return ⟨{ node.left with link := left }, { node.right with link := right }⟩

def pushRebased (a : Arena) (nodes batches : Nat) : List Node → Except (Interrupted Arena) Arena
  | [] => .ok a
  | node :: rest =>
    match rebaseNode nodes batches node with
    | .ok node => pushRebased { a with nodes := a.nodes.push node } nodes batches rest
    | .error cause => .error ⟨cause, a⟩

def append (a other : Arena) (root : Link) : Except (Interrupted Arena) (Link × Arena) := do
  let nodes := a.nodes.size
  let batches := a.batches.size
  let moved ← a.pushRebased nodes batches other.nodes.toList
  let merged := { moved with
    batches := moved.batches ++ other.batches
    statistics := moved.statistics.merge other.statistics }
  match root.rebase nodes batches with
  | .ok link => .ok (link, merged)
  | .error cause => .error ⟨cause, merged⟩

/-- Makes the first node the root. A tree that is a single leaf, or nothing, gets a node for it. -/
def rooted (a : Arena) (root : Link) (bounds : Box) : Except Fault Arena :=
  match root.target with
  | .inner 0 => .ok a
  | .inner _ => .error .rootNotFirst
  | _ =>
    if a.nodes.isEmpty then do return (← a.pushNode (.single ⟨bounds, root⟩)).2
    else .error .leafRootWithNodes

end Arena

end BoxTree

import BoxTree.Tree

/-!
# Validity

Checks that a tree is a tree over the triangles of a source: links stay within the arrays, every
node and every batch is reached once and not too deep, boxes contain the triangles below them, and
every triangle is in one leaf.
-/

namespace BoxTree

/-- What is wrong with a tree. Children are numbered zero for left and one for right. -/
inductive ValidityError where
  | triangleCount (expected actual : Nat)
  | missingRoot
  | linkOutOfRange (node : Nat) (child : Side)
  | tooDeep (node : Nat) (child : Side) (depth : Nat)
  | nodeReferencedTwice (node : Nat)
  | unreferencedNode (node : Nat)
  | batchReferenceCount (batch : Nat)
  | boxTooSmall (node : Nat) (child : Side)
  | missingChildBox (node : Nat) (child : Side)
  | rootBounds
  | triangleOutOfRange (batch triangle : Nat)
  | badPadding (batch padding : Nat)
  | triangleReferenceCount (triangle count : Nat)
  | interrupted (cause : Fault)
deriving DecidableEq

def ValidityError.message : ValidityError → String
  | triangleCount expected actual => s!"Tree holds {actual} triangles, the source has {expected}"
  | missingRoot => "Tree has no root node"
  | linkOutOfRange node child => s!"Child {child.index} of node {node} points outside of the arena"
  | tooDeep node child depth =>
    s!"Child {child.index} of node {node} is at depth {depth}, deeper than the maximum"
  | nodeReferencedTwice node => s!"Node {node} is referenced more than once"
  | unreferencedNode node => s!"Node {node} is not reachable from the root"
  | batchReferenceCount batch => s!"Batch {batch} is not referenced by exactly one leaf"
  | boxTooSmall node child =>
    s!"Box of child {child.index} of node {node} doesn't contain all of its triangles"
  | missingChildBox node child => s!"Missing child {child.index} of node {node} has a non-empty box"
  | rootBounds => "Root bounds don't contain all triangles"
  | triangleOutOfRange batch triangle =>
    s!"Leaf starting at batch {batch} references triangle {triangle}, which doesn't exist"
  | badPadding batch padding => s!"Leaf starting at batch {batch} has {padding} padding entries"
  | triangleReferenceCount triangle count => s!"Triangle {triangle} is stored in {count} leaves"
  | interrupted cause => (cause.message?).getD "The check was interrupted"

/-- The triangles of a leaf and the number of entries that only fill up its last batch: all repeats
of the last entry but one. A leaf without entries has none to repeat. -/
def unpack? (batches : List Batch) : Option (List Nat × Nat) :=
  let entries := batches.flatMap Lanes.toList
  match entries.reverse with
  | [] => none
  | last :: before =>
    let padding := (before.takeWhile (· == last)).length
    some (entries.take (entries.length - padding), padding)

structure Met where
  nodes : Array Bool
  batches : Array Bool
  /-- How often each triangle was met. -/
  triangles : Array Nat

namespace Met

def nothing (t : Tree) : Met where
  nodes := .replicate t.nodes.size false
  batches := .replicate t.batches.size false
  triangles := .replicate t.triangleCount 0

def mark (marks : Array Bool) (place : Nat) (twice : ValidityError) :
    Except ValidityError (Array Bool) :=
  match marks[place]? with
  | none => .error (.interrupted .outOfBounds)
  | some true => .error twice
  | some false => .ok (marks.setIfInBounds place true)

def addNode (met : Met) (node : Nat) : Except ValidityError Met := do
  return { met with nodes := ← mark met.nodes node (.nodeReferencedTwice node) }

def addBatches : Met → List Nat → Except ValidityError Met
  | met, [] => .ok met
  | met, batch :: rest => do
    let batches ← mark met.batches batch (.batchReferenceCount batch)
    addBatches { met with batches } rest

def addTriangle (met : Met) (leaf triangle : Nat) : Except ValidityError Met :=
  match met.triangles[triangle]? with
  | none => .error (.triangleOutOfRange leaf triangle)
  | some count => .ok { met with triangles := met.triangles.setIfInBounds triangle (count + 1) }

end Met

namespace Tree

def triangleBox (source : TriangleSource) (triangle : Nat) : Except ValidityError Box :=
  match source.triangle? triangle with
  | none => .error (.interrupted .outOfBounds)
  | some facet => .ok facet.boundingBox

def checkTriangles (source : TriangleSource) (leaf : Nat) :
    List Nat → Box → Met → Except ValidityError (Box × Met)
  | [], bounds, met => .ok (bounds, met)
  | triangle :: rest, bounds, met => do
    let met ← met.addTriangle leaf triangle
    checkTriangles source leaf rest (bounds.union (← triangleBox source triangle)) met

def leafBatches (t : Tree) (range : BatchRange) : Except ValidityError (List Batch) :=
  match range.toList.mapM (t.batches[·]?) with
  | none => .error (.interrupted .outOfBounds)
  | some batches => .ok batches

def checkBatches (source : TriangleSource) (leaf : Nat) (batches : List Batch) (met : Met) :
    Except ValidityError (Box × Met) :=
  match unpack? batches with
  | none => .error (.interrupted .outOfBounds)
  | some (triangles, padding) =>
    if padding < batchWidth then checkTriangles source leaf triangles .empty met
    else .error (.badPadding leaf padding)

def checkLeaf (t : Tree) (source : TriangleSource) (range : BatchRange) (met : Met) :
    Except ValidityError (Box × Met) := do
  let met ← met.addBatches range.toList
  checkBatches source range.first (← t.leafBatches range) met

def checkChild (t : Tree) (source : TriangleSource) (depth node : Nat)
    (checkInner? : Option (Fin t.nodes.size → Met → Except ValidityError (Box × Met)))
    (side : Side) (child : Child) (bounds : Box) (met : Met) : Except ValidityError (Box × Met) :=
  let enlarge (found : Box × Met) : Except ValidityError (Box × Met) :=
    if child.box.contains found.1 then .ok (bounds.union found.1, found.2)
    else .error (.boxTooSmall node side)
  match child.link.target, checkInner? with
  | .missing, _ =>
    if child.box.isEmpty then .ok (bounds, met) else .error (.missingChildBox node side)
  | _, none => .error (.tooDeep node side depth)
  | .inner index, some checkInner =>
    if h : index < t.nodes.size then do enlarge (← checkInner ⟨index, h⟩ met)
    else .error (.linkOutOfRange node side)
  | .leaf range, some _ =>
    if range.stop ≤ t.batches.size then do enlarge (← t.checkLeaf source range met)
    else .error (.linkOutOfRange node side)

def checkNode (t : Tree) (source : TriangleSource) :
    (levels : Nat) → Fin t.nodes.size → Met → Except ValidityError (Box × Met)
  | levels, index, met => do
    let met ← met.addNode index
    let checkInner? : Option (Fin t.nodes.size → Met → Except ValidityError (Box × Met)) :=
      match levels with
      | 0 => none
      | levels + 1 => some (checkNode t source levels)
    let check := t.checkChild source (maxDepth - levels + 1) index checkInner?
    let (bounds, met) ← check .left t.nodes[index].left .empty met
    check .right t.nodes[index].right bounds met

def checkMet (met : Met) : Except ValidityError Unit :=
  match met.nodes.findIdx? (· == false), met.batches.findIdx? (· == false),
    met.triangles.toList.zipIdx.find? (·.1 != 1) with
  | some node, _, _ => .error (.unreferencedNode node)
  | none, some batch, _ => .error (.batchReferenceCount batch)
  | none, none, some (count, triangle) => .error (.triangleReferenceCount triangle count)
  | none, none, none => .ok ()

def validate (t : Tree) (source : TriangleSource) : Except ValidityError Unit :=
  if source.count = t.triangleCount then
    if h : 0 < t.nodes.size then do
      let (bounds, met) ← t.checkNode source maxDepth ⟨0, h⟩ (.nothing t)
      if t.bounds.contains bounds then checkMet met else .error .rootBounds
    else .error .missingRoot
  else .error (.triangleCount source.count t.triangleCount)

end Tree

end BoxTree

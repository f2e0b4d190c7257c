import BoxTree.Arena
import BoxTree.Build.Decision
import BoxTree.Build.Orderings
import BoxTree.Build.Primitives

/-!
# Exact builds

Builds a tree by looking at every place to split the triangles of a node, along every axis. Nodes
are numbered in the order in which they are met from the root, the left subtree first.
-/

namespace BoxTree.Exact

variable {n : Nat}

structure Progress (n : Nat) where
  orderings : Orderings n
  arena : Arena

def Progress.start (p : Primitives n) : Progress n := ⟨.ofCentroids p.centroids, {}⟩

def bestSplit? (p : Primitives n) (cost : CostModel) (o : Orderings n) (span : Span)
    (bounds : Box) : Option (Split Axis) :=
  let along (axis : Axis) : Option Candidate :=
    cost.sweep axis bounds.surfaceArea ((o.slice axis span).map fun i => ⟨1, p.box i⟩)
  (Axis.all.foldl (fun best axis => Candidate.cheaper best (along axis)) none).map fun c =>
    ⟨c.cost, c.position, c.axis⟩

def decision (p : Primitives n) (s : Settings) (o : Orderings n) (span : Span) (bounds : Box)
    (depth : Nat) : Decision Axis :=
  match forcedLeaf? s span.length depth with
  | some reason => .leaf reason
  | none =>
    let cost := CostModel.ofSettings s
    .choose cost span.length depth (bestSplit? p cost o span bounds)

inductive Step where
  | leaf (reason : LeafReason)
  | split (left right : Span)

def divide (span : Span) (axis : Axis) (leftCount : Nat) (state : Progress n) :
    Except Fault (Step × Progress n) := do
  let orderings ← (state.orderings.partition span axis leftCount).mapError (·.cause)
  let (left, right) := span.cut leftCount
  return (.split left right, { state with orderings })

def plan (p : Primitives n) (s : Settings) (span : Span) (bounds : Box) (depth : Nat)
    (state : Progress n) : Except Fault (Step × Progress n) :=
  match decision p s state.orderings span bounds depth with
  | .leaf reason => .ok (.leaf reason, state)
  | .split best => divide span best.how best.leftCount state
  | .median =>
    let axis := (p.centroidBoundsOf (state.orderings.slice .x span)).longestAxis
    let statistics := state.arena.statistics.recordMedianSplit
    divide span axis (span.length / 2) { state with arena := { state.arena with statistics } }

def makeLeaf (span : Span) (depth : Nat) (reason : LeafReason) (state : Progress n) :
    Except Fault (Link × Progress n) := do
  let triangles := (state.orderings.slice .x span).map Fin.val
  let (link, arena) ← state.arena.addLeaf triangles depth reason
  return (link, { state with arena })

def build (p : Primitives n) (s : Settings) :
    (levels : Nat) → Span → (bounds : Box) → Progress n → Except Fault (Link × Progress n)
  | 0, span, _, state => makeLeaf span maxDepth (reasonAtLimit s span.length) state
  | levels + 1, span, bounds, state => do
    let depth := maxDepth - (levels + 1)
    let (step, state) ← plan p s span bounds depth state
    match step with
    | .leaf reason => makeLeaf span depth reason state
    | .split left right => do
      let leftBox := p.boundsOf (state.orderings.slice .x left)
      let rightBox := p.boundsOf (state.orderings.slice .x right)
      let (index, arena) ← state.arena.pushNode .empty
      let (leftLink, state) ← build p s levels left leftBox { state with arena }
      let (rightLink, state) ← build p s levels right rightBox state
      let arena := state.arena.setNode index ⟨⟨leftBox, leftLink⟩, ⟨rightBox, rightLink⟩⟩
      return (← Link.toInner index, { state with arena })

def buildAll (p : Primitives n) (s : Settings) : Except Fault Arena := do
  let (root, state) ← build p s maxDepth ⟨0, n⟩ p.bounds (.start p)
  state.arena.rooted root p.bounds

end BoxTree.Exact

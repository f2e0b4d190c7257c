import BoxTree.Build.Binned
import BoxTree.Build.Exact
import BoxTree.Triangle.Intersection

/-!
# Trees

Bounding volume hierarchies over the triangles of a source, and how they are built.
-/

namespace BoxTree

structure Tree where
  bounds : Box
  /-- All inner nodes, the root first. -/
  nodes : Array Node
  /-- The indices of the triangles of all leaves. The last batch of a leaf repeats its last index.
  -/
  batches : Array Batch
  triangles : Array TriangleBatch
  triangleCount : Nat
  statistics : BuildStatistics

inductive BuildError where
  | invalidSettings (cause : SettingsError)
  | tooManyTriangles (count : Nat)
  | interrupted (cause : Fault)
deriving DecidableEq

def BuildError.message? : BuildError → Option String
  | invalidSettings cause => some ("Invalid build settings: " ++ cause.message)
  | tooManyTriangles count =>
    some s!"Too many triangles: {count}, at most {maxTriangles} are supported"
  | interrupted cause => cause.message?

namespace Tree

def arena (source : TriangleSource) (select : Binned.Selection source.count) (s : Settings) :
    Except Fault Arena :=
  if source.count = 0 then Arena.rooted {} .missing .empty
  else
    let primitives := Primitives.ofSource source
    match s.strategy with
    | .exact => Exact.buildAll primitives s
    | .binned => Binned.buildAll select primitives s

def gather (source : TriangleSource) (batch : Batch) : Except Fault TriangleBatch :=
  match batch.mapM? source.triangle? with
  | some triangles => .ok (.ofTriangles triangles)
  | none => .error .outOfBounds

def ofArena (source : TriangleSource) (a : Arena) : Except Fault Tree := do
  let triangles ← a.batches.mapM (gather source)
  return {
    bounds := (Primitives.ofSource source).bounds
    nodes := a.nodes
    batches := a.batches
    triangles
    triangleCount := source.count
    statistics :=
      { a.statistics with triangleCount := source.count, nodeCount := a.nodes.size } }

def buildSelecting (source : TriangleSource) (select : Binned.Selection source.count)
    (s : Settings) : Except BuildError Tree := do
  s.validate.mapError .invalidSettings
  if maxTriangles < source.count then throw (.tooManyTriangles source.count)
  ((arena source select s).bind (ofArena source)).mapError .interrupted

def build (source : TriangleSource) (s : Settings) : Except BuildError Tree :=
  buildSelecting source Binned.Selection.sorted s

def buildReporting {σ : Type} (source : TriangleSource) (s : Settings)
    (sink : σ → BuildStatistics → σ) (state : σ) : Except BuildError Tree × σ :=
  match build source s with
  | .ok tree => (.ok tree, sink state tree.statistics)
  | .error cause => (.error cause, state)

def nodeCount (t : Tree) : Nat := t.nodes.size

def leafCount (t : Tree) : Nat := t.statistics.leafCount

end Tree

end BoxTree

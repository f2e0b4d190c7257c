import BoxTree.Decimal.Fixed
import BoxTree.Duration
import BoxTree.Limits
import BoxTree.Scalar

/-!
# Statistics

Counters kept while a tree is built.
-/

namespace BoxTree

/-- Number, extremes and sum of a sequence of counts. Without samples the least is the largest count
of 64 bits, so that any sample replaces it. -/
structure Samples where
  count : Nat := 0
  least : Nat := 0xffffffffffffffff
  greatest : Nat := 0
  sum : Nat := 0
deriving DecidableEq

namespace Samples

def single (value : Nat) : Samples := ⟨1, value, value, value⟩

def add (s : Samples) (value : Nat) : Samples :=
  ⟨s.count + 1, min s.least value, max s.greatest value, s.sum + value⟩

def merge (s t : Samples) : Samples :=
  ⟨s.count + t.count, min s.least t.least, max s.greatest t.greatest, s.sum + t.sum⟩

def ofList (values : List Nat) : Samples := values.foldl add {}

def average (s : Samples) : Float32 :=
  if s.count = 0 then 0 else Scalar.ofCount s.sum / Scalar.ofCount s.count

def text (s : Samples) : String :=
  if s.count = 0 then "no samples"
  else s!"{s.least} - {s.greatest}; avg {fixedText 1 s.average}; {s.count} samples"

end Samples

inductive LeafReason where
  /-- Few enough triangles never to be split. -/
  | threshold
  /-- No split was cheaper than intersecting all triangles. -/
  | cost
  | depthLimit
deriving DecidableEq

structure BuildStatistics where
  triangleCount : Nat := 0
  nodeCount : Nat := 0
  leafCount : Nat := 0
  paddedReferences : Nat := 0
  leafDepth : Samples := {}
  leafFill : Samples := {}
  thresholdLeaves : Nat := 0
  costLeaves : Nat := 0
  depthLimitLeaves : Nat := 0
  medianSplits : Nat := 0
  parallelTasks : Nat := 0
deriving DecidableEq

def batchesFor (triangles : Nat) : Nat := (triangles + (batchWidth - 1)) / batchWidth

namespace BuildStatistics

def countReason (s : BuildStatistics) : LeafReason → BuildStatistics
  | .threshold => { s with thresholdLeaves := s.thresholdLeaves + 1 }
  | .cost => { s with costLeaves := s.costLeaves + 1 }
  | .depthLimit => { s with depthLimitLeaves := s.depthLimitLeaves + 1 }

def recordLeaf (s : BuildStatistics) (depth triangles : Nat) (reason : LeafReason) :
    BuildStatistics :=
  { s.countReason reason with
    leafCount := s.leafCount + 1
    paddedReferences := s.paddedReferences + batchesFor triangles * batchWidth
    leafDepth := s.leafDepth.add depth
    leafFill := s.leafFill.add triangles }

def recordMedianSplit (s : BuildStatistics) : BuildStatistics :=
  { s with medianSplits := s.medianSplits + 1 }

/-- Adds the counters of a part that was built on its own. The numbers of triangles and nodes belong
to whole trees and stay. -/
def merge (s t : BuildStatistics) : BuildStatistics :=
  { s with
    leafCount := s.leafCount + t.leafCount
    paddedReferences := s.paddedReferences + t.paddedReferences
    leafDepth := s.leafDepth.merge t.leafDepth
    leafFill := s.leafFill.merge t.leafFill
    thresholdLeaves := s.thresholdLeaves + t.thresholdLeaves
    costLeaves := s.costLeaves + t.costLeaves
    depthLimitLeaves := s.depthLimitLeaves + t.depthLimitLeaves
    medianSplits := s.medianSplits + t.medianSplits
    parallelTasks := s.parallelTasks + t.parallelTasks }

def report (s : BuildStatistics) : List String :=
  [s!"Triangles: {s.triangleCount} ({s.paddedReferences} references with padding)",
    s!"Nodes: {s.nodeCount}, leaves: {s.leafCount}",
    "Leaf depth: " ++ s.leafDepth.text,
    "Leaf fill: " ++ s.leafFill.text,
    s!"Leaves by reason: {s.thresholdLeaves} threshold, {s.costLeaves} cost, " ++
      s!"{s.depthLimitLeaves} depth limit",
    s!"Median splits: {s.medianSplits}",
    s!"Parallel tasks: {s.parallelTasks}"]

def timeLine (elapsed : Duration) : String := "Build time: " ++ elapsed.text 1

def text (s : BuildStatistics) (elapsed : Duration) : String :=
  String.intercalate "\n" (s.report ++ [timeLine elapsed])

end BuildStatistics

end BoxTree

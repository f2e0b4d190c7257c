import BoxTree.Limits

/-!
# Build settings

What a build can be told, and which settings are refused.
-/

namespace BoxTree

inductive Strategy where
  /-- Every split position is evaluated, on one thread. -/
  | exact
  /-- Split positions are evaluated between bins, subtrees are built as tasks. -/
  | binned
deriving DecidableEq

structure Settings where
  strategy : Strategy := .exact
  /-- Nodes with at most this many triangles always become leaves. -/
  leafThreshold : Nat := 4
  traversalCost : Float32 := 1
  intersectionCost : Float32 := 4
  binCount : Nat := 16
  /-- Subtrees with fewer triangles than this are built as one task. -/
  taskThreshold : Nat := 4096

inductive SettingsError where
  | leafThreshold
  | traversalCost
  | intersectionCost
  | binCount
  | taskThreshold
deriving DecidableEq

def SettingsError.message : SettingsError → String
  | leafThreshold => "leaf threshold must be between 1 and the maximum leaf size"
  | traversalCost => "traversal cost must be finite and positive"
  | intersectionCost => "intersection cost must be finite and positive"
  | binCount => "bin count must be between 2 and 256"
  | taskThreshold => "task threshold must be positive"

namespace Settings

def minBinCount : Nat := 2

def maxBinCount : Nat := 256

def isCost (x : Float32) : Bool := x.isFinite && decide (x > 0)

def validate (s : Settings) : Except SettingsError Unit := do
  if s.leafThreshold < 1 ∨ maxLeafTriangles < s.leafThreshold then throw .leafThreshold
  if !isCost s.traversalCost then throw .traversalCost
  if !isCost s.intersectionCost then throw .intersectionCost
  if s.binCount < minBinCount ∨ maxBinCount < s.binCount then throw .binCount
  if s.taskThreshold = 0 then throw .taskThreshold

end Settings

end BoxTree

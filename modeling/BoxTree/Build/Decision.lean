import BoxTree.Build.Cost
import BoxTree.Statistics

/-!
# Decisions

Whether a node becomes a leaf, and where it is split otherwise. A split that the costs prefer is
given up for a median split where it could lead to a leaf that is too large to be stored.
-/

namespace BoxTree

def forcedLeaf? (s : Settings) (count depth : Nat) : Option LeafReason :=
  if count ≤ s.leafThreshold then some .threshold
  else if maxDepth ≤ depth then some .depthLimit
  else none

def reasonAtLimit (s : Settings) (count : Nat) : LeafReason :=
  if count ≤ s.leafThreshold then .threshold else .depthLimit

theorem forcedLeaf?_maxDepth (s : Settings) (count : Nat) :
    forcedLeaf? s count maxDepth = some (reasonAtLimit s count) := by
  unfold forcedLeaf? reasonAtLimit
  split <;> simp

/-- Whether median splits make a subtree of this many triangles at this depth fit. From 32 levels on
every count fits that can be stored. -/
def fitsBelow (count depth : Nat) : Bool :=
  let levels := maxDepth - depth
  32 ≤ levels || count ≤ maxLeafTriangles <<< levels

structure Split (β : Type) where
  cost : Float32
  leftCount : Nat
  how : β

inductive Decision (β : Type) where
  | leaf (reason : LeafReason)
  | split (best : Split β)
  /-- Split at the median of the centroids along their longest axis. -/
  | median

def Decision.choose {β : Type} (cost : CostModel) (count depth : Nat) (best : Option (Split β)) :
    Decision β :=
  match best.filter fun s => decide (s.cost < cost.leafCost count) with
  | some s =>
    if fitsBelow s.leftCount (depth + 1) && fitsBelow (count - s.leftCount) (depth + 1) then
      .split s
    else .median
  | none => if count ≤ maxLeafTriangles then .leaf .cost else .median

end BoxTree

import BoxTree.Box
import BoxTree.Settings

/-!
# The surface area heuristic

Estimates what a query costs. The chance to meet a box is taken to be proportional to its surface
area, so a split is judged by the areas of the two boxes it makes.
-/

namespace BoxTree
open Scalar

structure CostModel where
  traversal : Float32
  intersection : Float32

structure Candidate where
  axis : Axis
  position : Nat
  cost : Float32

structure Portion where
  count : Nat
  box : Box

namespace Portion

def empty : Portion := ⟨0, .empty⟩

def merge (p q : Portion) : Portion := ⟨p.count + q.count, p.box.union q.box⟩

def mergeAll (items : List Portion) : Portion := items.foldl merge empty

end Portion

/-- The cheaper one of two candidates, the first one if neither is. -/
def Candidate.cheaper : Option Candidate → Option Candidate → Option Candidate
  | some a, some b => some (if b.cost < a.cost then b else a)
  | a, none => a
  | none, b => b

namespace CostModel

def ofSettings (s : Settings) : CostModel := ⟨s.traversalCost, s.intersectionCost⟩

def leafCost (c : CostModel) (count : Nat) : Float32 := ofCount count * c.intersection

def splitCost (c : CostModel) (parentArea : Float32) (leftCount : Nat) (leftArea : Float32)
    (rightCount : Nat) (rightArea : Float32) : Float32 :=
  let weighted := ofCount leftCount * leftArea + ofCount rightCount * rightArea
  c.traversal + weighted / parentArea * c.intersection

def tabulate (axis : Axis) (items : List Portion) (table : Array (Nat × Float32)) :
    Array (Nat × Float32) :=
  (items.foldr
    (fun item (acc : Portion × Array (Nat × Float32)) =>
      let portion := acc.1.merge item
      (portion, acc.2.push (portion.count, portion.box.surfaceAreaAlong axis)))
    (.empty, table.take 0)).2.reverse

def sweepFrom (c : CostModel) (axis : Axis) (parentArea : Float32) :
    List (Portion × Nat × Float32) → (left : Portion) → (position : Nat) → Option Candidate →
    Option Candidate
  | [], _, _, best => best
  | (item, rightCount, rightArea) :: rest, left, position, best =>
    let left := left.merge item
    let best :=
      if left.count = 0 ∨ rightCount = 0 then best
      else
        let cost :=
          c.splitCost parentArea left.count (left.box.surfaceAreaAlong axis) rightCount rightArea
        Candidate.cheaper best (some ⟨axis, position, cost⟩)
    sweepFrom c axis parentArea rest left (position + 1) best

/-- Looks at the places between all neighbours. The table is room to work in, and comes back for the next
sweep. -/
def sweepWith (c : CostModel) (axis : Axis) (parentArea : Float32) (items : List Portion)
    (table : Array (Nat × Float32)) : Option Candidate × Array (Nat × Float32) :=
  if parentArea ≤ 0 ∨ items.length < 2 then (none, table)
  else
    let table := tabulate axis items table
    (c.sweepFrom axis parentArea (items.zip table.toList.tail) .empty 1 none, table)

def sweep (c : CostModel) (axis : Axis) (parentArea : Float32) (items : List Portion) :
    Option Candidate :=
  (c.sweepWith axis parentArea items #[]).1

end CostModel

end BoxTree

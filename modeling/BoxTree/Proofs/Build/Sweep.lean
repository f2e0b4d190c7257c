import BoxTree.Proofs.Box
import BoxTree.Proofs.Build.Cost
import BoxTree.Proofs.Scalar.Alike

/-!
# Sweeps and the order of their unions

The box around some boxes depends on the order in which they are united only in the sign of zeros. That
sign stays without effect on areas, costs and on which candidate is the first cheapest one.
-/

namespace BoxTree
open Scalar

namespace Box

def Alike (a b : Box) : Prop :=
  ∀ axis, Scalar.Alike (a.lower.get axis) (b.lower.get axis) ∧
    Scalar.Alike (a.upper.get axis) (b.upper.get axis)

theorem alike_unionAll {xs ys : List Box} (perm : xs.Perm ys) : (unionAll xs).Alike (unionAll ys) := by
  intro axis
  have around := unionAll_around_of_subset perm.symm.subset axis
  have inside := unionAll_around_of_subset perm.subset axis
  exact ⟨around.1.antisymm inside.1, inside.2.antisymm around.2⟩

namespace Alike

variable {a b : Box}

theorem length (same : a.Alike b) (axis : Axis) : Scalar.Alike (a.length axis) (b.length axis) :=
  (same axis).2.sub (same axis).1

theorem isEmpty (same : a.Alike b) : a.isEmpty = b.isEmpty := by
  rw [Box.isEmpty, Box.isEmpty]
  simp only [fun axis => (same axis).1.le_iff_le (same axis).2]

theorem faceArea (same : a.Alike b) (axis : Axis) :
    Scalar.Alike (a.faceArea axis) (b.faceArea axis) := by
  rw [Box.faceArea, Box.faceArea, same.isEmpty]
  split
  · exact .refl 0
  · exact (same.length _).mul (same.length _)

theorem facePerimeter (same : a.Alike b) (axis : Axis) :
    Scalar.Alike (a.facePerimeter axis) (b.facePerimeter axis) := by
  rw [Box.facePerimeter, Box.facePerimeter, same.isEmpty]
  split
  · exact .refl 0
  · exact .mul (.refl 2) ((same.length _).add (same.length _))

theorem surfaceAreaAlong (same : a.Alike b) (axis : Axis) :
    Scalar.Alike (a.surfaceAreaAlong axis) (b.surfaceAreaAlong axis) :=
  .add (.mul (.refl 2) (same.faceArea axis))
    ((same.facePerimeter axis).mul ((same.length axis).max (.refl 0)))

end Alike

end Box

namespace Portion

theorem box_foldl_merge (items : List Portion) (p : Portion) :
    (items.foldl merge p).box = (items.map box).foldl Box.union p.box := by
  induction items generalizing p with
  | nil => rfl
  | cons item items ih => exact ih (p.merge item)

theorem box_mergeAll (items : List Portion) : (mergeAll items).box = Box.unionAll (items.map box) :=
  box_foldl_merge items empty

theorem alike_arrange (order other : Arrangement) (items : List Portion) :
    (mergeAll (order.arrange items)).box.Alike (mergeAll (other.arrange items)).box := by
  rw [box_mergeAll, box_mergeAll]
  exact Box.alike_unionAll (((order.perm items).trans (other.perm items).symm).map box)

end Portion

/-- The same split, with costs that differ at most in the sign of zero. -/
structure Candidate.Alike (a b : Candidate) : Prop where
  axis : a.axis = b.axis
  position : a.position = b.position
  cost : Scalar.Alike a.cost b.cost

open Portion

namespace CostModel

variable {c : CostModel} {axis : Axis} {parentArea : Float32}

theorem alike_splitCost {left left' right right' : Float32} (leftCount rightCount : Nat)
    (sameLeft : Scalar.Alike left left') (sameRight : Scalar.Alike right right') :
    Scalar.Alike (c.splitCost parentArea leftCount left rightCount right)
      (c.splitCost parentArea leftCount left' rightCount right') :=
  .add (.refl c.traversal)
    (.mul (.div (.add (.mul (.refl _) sameLeft) (.mul (.refl _) sameRight)) parentArea)
      (.refl c.intersection))

theorem alike_cheaper {a a' b b' : Option Candidate} (first : Option.Rel Candidate.Alike a a')
    (second : Option.Rel Candidate.Alike b b') :
    Option.Rel Candidate.Alike (Candidate.cheaper a b) (Candidate.cheaper a' b') := by
  cases first with
  | none =>
      cases second with
      | none => exact .none
      | some second => exact .some second
  | some first =>
      cases second with
      | none => exact .some first
      | some second =>
          refine .some ?_
          simp only [second.cost.lt_iff_lt first.cost]
          split
          · exact second
          · exact first

theorem alike_candidateAt (before after before' after' : Arrangement) (items : List Portion)
    (position : Nat) :
    Option.Rel Candidate.Alike (c.candidateAt axis parentArea before after items position)
      (c.candidateAt axis parentArea before' after' items position) := by
  simp only [candidateAt, count_arrange]
  split
  · exact .none
  · exact .some ⟨rfl, rfl, alike_splitCost _ _
      ((alike_arrange before before' _).surfaceAreaAlong axis)
      ((alike_arrange after after' _).surfaceAreaAlong axis)⟩

theorem alike_placeByPlace (before after before' after' : Arrangement) (items : List Portion) :
    Option.Rel Candidate.Alike (c.placeByPlace axis parentArea before after items)
      (c.placeByPlace axis parentArea before' after' items) := by
  have folds (positions : List Nat) {best best' : Option Candidate}
      (same : Option.Rel Candidate.Alike best best') :
      Option.Rel Candidate.Alike
        (positions.foldl (fun best position => Candidate.cheaper best
          (c.candidateAt axis parentArea before after items position)) best)
        (positions.foldl (fun best position => Candidate.cheaper best
          (c.candidateAt axis parentArea before' after' items position)) best') := by
    induction positions generalizing best best' with
    | nil => exact same
    | cons position positions ih =>
        exact ih (alike_cheaper same (alike_candidateAt before after before' after' items position))
  rw [placeByPlace_eq, placeByPlace_eq]
  split
  · exact .none
  · exact folds _ .none

/-- A sweep finds what one finds place by place, and this does not depend on the order in which the boxes on
both sides are united, but for the sign of a cost of zero. -/
theorem sweepWith_finds (c : CostModel) (axis : Axis) (parentArea : Float32) (items : List Portion)
    (table : Array (Nat × Float32)) :
    (c.sweepWith axis parentArea items table).1 =
        c.placeByPlace axis parentArea .inOrder .fromLast items ∧
      ∀ before after : Arrangement, Option.Rel Candidate.Alike
        (c.sweepWith axis parentArea items table).1
        (c.placeByPlace axis parentArea before after items) := by
  refine ⟨fst_sweepWith items table, fun before after => ?_⟩
  rw [fst_sweepWith]
  exact alike_placeByPlace .inOrder .fromLast before after items

end CostModel

end BoxTree

import BoxTree.Build.Cost
import Mathlib.Tactic

/-!
# Splits found by a sweep

A sweep goes over the items twice, and finds what one finds that puts both sides of every place together
from nothing. So it only ever proposes a place between two neighbours that leaves triangles on both
sides.
-/

namespace BoxTree

namespace Portion

def total (items : List Portion) : Nat := (items.map Portion.count).sum

theorem total_cons (item : Portion) (items : List Portion) :
    total (item :: items) = item.count + total items := by
  simp only [total, List.map_cons, List.sum_cons]

theorem total_append (xs ys : List Portion) : total (xs ++ ys) = total xs + total ys := by
  simp only [total, List.map_append, List.sum_append]

theorem count_foldl_merge (items : List Portion) (p : Portion) :
    (items.foldl merge p).count = p.count + total items := by
  induction items generalizing p with
  | nil => rfl
  | cons item items ih =>
      rw [List.foldl_cons, ih, total_cons, merge, Nat.add_assoc]

theorem count_mergeAll (items : List Portion) : (mergeAll items).count = total items := by
  rw [mergeAll, count_foldl_merge]
  exact Nat.zero_add _

theorem mergeAll_concat (items : List Portion) (item : Portion) :
    mergeAll (items ++ [item]) = (mergeAll items).merge item := by
  rw [mergeAll, List.foldl_concat, mergeAll]

structure Arrangement where
  arrange : List Portion → List Portion
  perm : ∀ items, (arrange items).Perm items

def Arrangement.inOrder : Arrangement := ⟨id, List.Perm.refl⟩

def Arrangement.fromLast : Arrangement := ⟨List.reverse, List.reverse_perm⟩

theorem count_arrange (order : Arrangement) (items : List Portion) :
    (mergeAll (order.arrange items)).count = total items := by
  rw [count_mergeAll]
  exact ((order.perm items).map count).sum_eq

end Portion

open Portion

namespace CostModel

variable {c : CostModel} {axis : Axis} {parentArea : Float32}

def remainders (axis : Axis) : List Portion → List (Nat × Float32)
  | [] => []
  | item :: rest =>
    let portion := mergeAll (item :: rest).reverse
    (portion.count, portion.box.surfaceAreaAlong axis) :: remainders axis rest

theorem foldr_tabulate (axis : Axis) (items : List Portion) :
    items.foldr
        (fun item (acc : Portion × Array (Nat × Float32)) =>
          let portion := acc.1.merge item
          (portion, acc.2.push (portion.count, portion.box.surfaceAreaAlong axis)))
        (.empty, #[]) =
      (mergeAll items.reverse, (remainders axis items).reverse.toArray) := by
  induction items with
  | nil => rfl
  | cons item items ih =>
      rw [List.foldr_cons, ih]
      simp only [remainders, List.reverse_cons, mergeAll_concat, List.push_toArray]

theorem toList_tabulate (axis : Axis) (items : List Portion) (table : Array (Nat × Float32)) :
    (tabulate axis items table).toList = remainders axis items := by
  have cleared : table.take 0 = #[] := by simp
  rw [tabulate, cleared, foldr_tabulate]
  simp only [List.reverse_toArray, List.reverse_reverse]

theorem cheaper_eq {a b : Option Candidate} {chosen : Candidate}
    (given : Candidate.cheaper a b = some chosen) : a = some chosen ∨ b = some chosen := by
  cases a with
  | none => exact .inr (by cases b <;> exact given)
  | some first =>
      cases b with
      | none => exact .inl given
      | some second =>
          have given := Option.some.inj given
          split at given
          · exact .inr (congrArg some given)
          · exact .inl (congrArg some given)

theorem foldl_cheaper_eq {α : Type} {candidate : α → Option Candidate} {xs : List α}
    {best : Option Candidate} {chosen : Candidate}
    (given : xs.foldl (fun best x => Candidate.cheaper best (candidate x)) best = some chosen) :
    best = some chosen ∨ ∃ x ∈ xs, candidate x = some chosen := by
  induction xs generalizing best with
  | nil => exact .inl given
  | cons x xs ih =>
      rcases ih given with first | ⟨other, member, here⟩
      · rcases cheaper_eq first with before | here
        · exact .inl before
        · exact .inr ⟨x, List.mem_cons_self, here⟩
      · exact .inr ⟨other, List.mem_cons_of_mem x member, here⟩

/-! ## Every place on its own -/

/-- The candidate of one place, with both sides put together from nothing. -/
def candidateAt (c : CostModel) (axis : Axis) (parentArea : Float32) (before after : Arrangement)
    (items : List Portion) (position : Nat) : Option Candidate :=
  let left := mergeAll (before.arrange (items.take position))
  let right := mergeAll (after.arrange (items.drop position))
  if left.count = 0 ∨ right.count = 0 then none
  else
    some ⟨axis, position,
      c.splitCost parentArea left.count (left.box.surfaceAreaAlong axis)
        right.count (right.box.surfaceAreaAlong axis)⟩

/-- Looks at one place after the other, and keeps the first cheapest candidate. -/
def placeByPlace (c : CostModel) (axis : Axis) (parentArea : Float32) (before after : Arrangement)
    (items : List Portion) : Option Candidate :=
  if parentArea ≤ 0 ∨ items.length < 2 then none
  else
    (List.range' 1 (items.length - 1)).foldl
      (fun best position =>
        match c.candidateAt axis parentArea before after items position, best with
        | none, _ => best
        | some candidate, none => some candidate
        | some candidate, some kept => if candidate.cost < kept.cost then some candidate else some kept)
      none

theorem placeByPlace_eq (c : CostModel) (axis : Axis) (parentArea : Float32) (before after : Arrangement)
    (items : List Portion) :
    c.placeByPlace axis parentArea before after items =
      if parentArea ≤ 0 ∨ items.length < 2 then none
      else
        (List.range' 1 (items.length - 1)).foldl
          (fun best position =>
            Candidate.cheaper best (c.candidateAt axis parentArea before after items position))
          none := by
  rw [placeByPlace]
  congr 2
  funext best position
  cases c.candidateAt axis parentArea before after items position with
  | none => cases best <;> rfl
  | some candidate =>
      cases best with
      | none => rfl
      | some kept => exact (apply_ite some _ _ _).symm

theorem cheaper_ite {best : Option Candidate} {p : Prop} [Decidable p] {candidate : Candidate} :
    Candidate.cheaper best (if p then none else some candidate) =
      if p then best else Candidate.cheaper best (some candidate) := by
  split
  · cases best <;> rfl
  · rfl

theorem candidateAt_append (c : CostModel) (axis : Axis) (parentArea : Float32)
    (before after : List Portion) :
    c.candidateAt axis parentArea .inOrder .fromLast (before ++ after) before.length =
      let left := mergeAll before
      let right := mergeAll after.reverse
      if left.count = 0 ∨ right.count = 0 then none
      else
        some ⟨axis, before.length,
          c.splitCost parentArea left.count (left.box.surfaceAreaAlong axis)
            right.count (right.box.surfaceAreaAlong axis)⟩ := by
  rw [candidateAt, List.take_left, List.drop_left]
  rfl

theorem sweepFrom_eq (before after : List Portion) (best : Option Candidate) :
    c.sweepFrom axis parentArea (after.zip (remainders axis after).tail) (mergeAll before)
        (before.length + 1) best =
      (List.range' (before.length + 1) (after.length - 1)).foldl
        (fun best position => Candidate.cheaper best
          (c.candidateAt axis parentArea .inOrder .fromLast (before ++ after) position))
        best := by
  -- One item goes to the left in every step, and comes with the remainder of the items after it.
  induction after generalizing before best with
  | nil => rfl
  | cons item rest ih =>
      rw [remainders, List.tail_cons]
      cases rest with
      | nil => rfl
      | cons next rest =>
          have moved : mergeAll (before ++ [item]) = (mergeAll before).merge item :=
            mergeAll_concat before item
          have split : before ++ item :: next :: rest = (before ++ [item]) ++ next :: rest := by
            rw [List.append_assoc, List.singleton_append]
          have length : (before ++ [item]).length = before.length + 1 := by
            rw [List.length_append, List.length_singleton]
          have here := candidateAt_append c axis parentArea (before ++ [item]) (next :: rest)
          have later := ih (before ++ [item])
          rw [moved, length, ← split] at here
          rw [moved, length, remainders, List.tail_cons, ← split] at later
          rw [remainders, List.zip_cons_cons, sweepFrom]
          simp only [later, List.length_cons, Nat.add_sub_cancel, List.range'_succ, List.foldl_cons,
            here, cheaper_ite]

theorem fst_sweepWith (items : List Portion) (table : Array (Nat × Float32)) :
    (c.sweepWith axis parentArea items table).1 =
      c.placeByPlace axis parentArea .inOrder .fromLast items := by
  rw [sweepWith, placeByPlace_eq]
  split
  · rfl
  · change c.sweepFrom axis parentArea (items.zip (tabulate axis items table).toList.tail) .empty 1 none = _
    rw [toList_tabulate]
    exact sweepFrom_eq [] items none

structure Separates (items : List Portion) (position : Nat) : Prop where
  positive : 0 < position
  less : position < items.length
  left : total (items.take position) ≠ 0
  right : total (items.drop position) ≠ 0

theorem sweep_spec {items : List Portion} {found : Candidate}
    (given : c.sweep axis parentArea items = some found) : Separates items found.position := by
  rw [sweep, fst_sweepWith, placeByPlace_eq] at given
  split at given
  · cases given
  · rcases foldl_cheaper_eq given with absurd | ⟨position, member, chosen⟩
    · cases absurd
    · have bounds := List.mem_range'_1.1 member
      rw [candidateAt] at chosen
      split at chosen
      · cases chosen
      · next some =>
          obtain rfl := Option.some.inj chosen
          rw [count_arrange, count_arrange, not_or] at some
          exact ⟨bounds.1, by simp only; omega, some.1, some.2⟩

end CostModel

end BoxTree

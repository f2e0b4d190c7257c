import BoxTree.Build.Primitives
import BoxTree.Proofs.Box

/-!
# Boxes of groups of triangles

The box of some triangles comes from which triangles they are: in whatever order they come, however often and
in whatever groups, it differs at most in the signs of zeros. Containing is a preorder on all boxes.
-/

namespace BoxTree
open Scalar

namespace Box

theorem contains_refl (b : Box) : b.contains b = true := by
  rw [contains_iff]
  cases nothing : b.isEmpty with
  | true => exact .inl rfl
  | false =>
      refine .inr fun axis => ?_
      obtain ⟨numberLower, numberUpper, _⟩ := le_iff.1 (isEmpty_eq_false.1 nothing axis)
      exact ⟨le_refl_scalar numberLower, le_refl_scalar numberUpper⟩

theorem isEmpty_of_contains {a b : Box} (contains : a.contains b = true) (something : b.isEmpty = false) :
    a.isEmpty = false := by
  obtain nothing | within := contains_iff.1 contains
  · rw [something] at nothing
    cases nothing
  · rw [isEmpty_eq_false] at something ⊢
    exact fun axis =>
      le_trans_scalar (le_trans_scalar (within axis).1 (something axis)) (within axis).2

theorem contains_trans {a b c : Box} (outer : a.contains b = true) (inner : b.contains c = true) :
    a.contains c = true := by
  cases nothing : c.isEmpty with
  | true => exact contains_iff.2 (.inl nothing)
  | false =>
      have something := isEmpty_of_contains inner nothing
      rw [contains_iff] at outer inner ⊢
      have around := outer.resolve_left (Bool.eq_false_iff.1 something)
      have within := inner.resolve_left (Bool.eq_false_iff.1 nothing)
      exact .inr fun axis => ⟨le_trans_scalar (around axis).1 (within axis).1,
        le_trans_scalar (within axis).2 (around axis).2⟩

end Box

namespace Primitives

variable {n : Nat}

theorem boundsOf_append (p : Primitives n) (xs ys : List (Fin n)) :
    p.boundsOf (xs ++ ys) = (p.boundsOf xs).union (p.boundsOf ys) := by
  rw [boundsOf, List.map_append, Box.unionAll_append, boundsOf, boundsOf]

theorem contains_boundsOf (p : Primitives n) {inner outer : List (Fin n)} (subset : inner ⊆ outer) :
    (p.boundsOf outer).contains (p.boundsOf inner) = true :=
  Box.contains_unionAll_of_subset (List.map_subset p.box subset)

/-- Two lists of the same triangles have the same box, be they rearranged or freed of repeats, and two groups
of triangles together have the union of both boxes, which contains both. This holds for triangles with boxes
of any kind, and containing is reflexive and transitive on boxes of any kind. -/
theorem boundsOf_grouping (p : Primitives n) :
    (∀ xs ys : List (Fin n), (∀ i, i ∈ xs ↔ i ∈ ys) → (p.boundsOf xs).Same (p.boundsOf ys)) ∧
    (∀ xs ys : List (Fin n), p.boundsOf (xs ++ ys) = (p.boundsOf xs).union (p.boundsOf ys) ∧
      ((p.boundsOf xs).union (p.boundsOf ys)).contains (p.boundsOf xs) = true ∧
      ((p.boundsOf xs).union (p.boundsOf ys)).contains (p.boundsOf ys) = true) ∧
    (∀ b : Box, b.contains b = true) ∧
    ∀ a b c : Box, a.contains b = true → b.contains c = true → a.contains c = true := by
  refine ⟨fun xs ys members => ?_, fun xs ys => ?_, Box.contains_refl, fun _ _ _ => Box.contains_trans⟩
  · exact Box.same_unionAll (List.map_subset p.box fun i => (members i).1)
      (List.map_subset p.box fun i => (members i).2)
  · rw [← boundsOf_append]
    exact ⟨rfl, p.contains_boundsOf (List.subset_append_left xs ys),
      p.contains_boundsOf (List.subset_append_right xs ys)⟩

/-- Two boxes with zeros of both signs, and a third one with a corner that is not a number, which still widens
the others along `z`. -/
def patchy : Primitives 3 where
  boxes := #v[⟨⟨0, -1, 0⟩, ⟨1, 0, 1⟩⟩, ⟨⟨-0, -2, 0⟩, ⟨2, -0, 1⟩⟩,
    ⟨⟨Float32.ofBits 0x7fc00000, infinity, -5⟩, ⟨0, negativeInfinity, 5⟩⟩]
  centroids := .replicate 3 ⟨0, 0, 0⟩
  bounds := .empty

theorem boundsOf_grouping_patchy :
    (patchy.boundsOf [2, 1, 0, 2]).Same (patchy.boundsOf [0, 1, 2]) ∧
      (patchy.boundsOf [2, 1, 0, 2]).contains (patchy.box 2) = true := by
  obtain ⟨same, _, _, trans⟩ := boundsOf_grouping patchy
  exact ⟨same _ _ (by decide), trans _ (patchy.boundsOf [0, 2]) _ (by decide +kernel) (by decide +kernel)⟩

end Primitives

end BoxTree

import BoxTree.Proofs.Box

/-!
# Histories of boxes

A box that was put together from nothing, point by point and by uniting it with others, is the box of all points
that went into it. On every axis it has either taken in no number and has its corners at the wrong infinities,
or its lower corner is not above the upper one.
-/

namespace BoxTree
open Scalar

namespace Box

/-- The corners of the empty box, which no number ever came between. -/
structure Inverted (b : Box) (axis : Axis) : Prop where
  lower : b.lower.get axis = infinity
  upper : b.upper.get axis = negativeInfinity

variable {points : List (Vec3 Float32)} {axis : Axis}

theorem inverted_ofPoints (nans : ∀ p ∈ points, (p.get axis).isNaN = true) :
    (ofPoints points).Inverted axis := by
  obtain ⟨lower, upper⟩ := get_ofPoints points axis
  exact ⟨lower.trans (foldl_minNum_of_isNaN isNaN_infinity nans),
    upper.trans (foldl_maxNum_of_isNaN isNaN_negativeInfinity nans)⟩

end Box

inductive History where
  | nothing
  | insert (before : History) (point : Vec3 Float32)
  | union (first second : History)

namespace History

def box : History → Box
  | nothing => .empty
  | insert before point => before.box.insert point
  | union first second => first.box.union second.box

def points : History → List (Vec3 Float32)
  | nothing => []
  | insert before point => before.points ++ [point]
  | union first second => first.points ++ second.points

theorem box_eq (h : History) : h.box = .ofPoints h.points := by
  induction h with
  | nothing => rfl
  | insert before point ih =>
      rw [box, points, ih, Box.ofPoints, Box.ofPoints, List.foldl_concat]
  | union first second ihFirst ihSecond =>
      rw [box, points, ihFirst, ihSecond, Box.ofPoints_eq, Box.ofPoints_eq, Box.ofPoints_eq, List.map_append,
        Box.unionAll_append]

/-- An axis of a box is inverted, which no coordinate that is a number was added to, or else in order. -/
theorem inverted_or_le (h : History) (axis : Axis) :
    ((∀ p ∈ h.points, (p.get axis).isNaN = true) ∧ h.box.Inverted axis) ∨
      (∃ p ∈ h.points, (p.get axis).isNaN = false) ∧ h.box.lower.get axis ≤ h.box.upper.get axis := by
  rw [box_eq]
  by_cases nans : ∀ p ∈ h.points, (p.get axis).isNaN = true
  · exact .inl ⟨nans, Box.inverted_ofPoints nans⟩
  · simp only [not_forall, Bool.not_eq_true, exists_prop] at nans
    obtain ⟨p, member, number⟩ := nans
    obtain ⟨above, below⟩ := Box.ofPoints_bounds member number
    exact .inr ⟨⟨p, member, number⟩, le_trans_scalar above below⟩

theorem exists_inverted (h : History) (nothing : h.box.isEmpty = true) : ∃ axis, h.box.Inverted axis := by
  by_contra ordered
  rw [not_exists] at ordered
  have something : h.box.isEmpty = false := Box.isEmpty_eq_false.2 fun axis =>
    ((h.inverted_or_le axis).resolve_left fun inverted => ordered axis inverted.2).2
  rw [nothing] at something
  cases something

end History

end BoxTree

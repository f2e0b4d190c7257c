import Mathlib
import BoxTree.Triangle.Intersection

/-!
# Crossings over a field

The formula for the crossing of a line with the plane of a triangle takes any kind of number. Over an
ordered field, where nothing is rounded, it finds the only solution of the linear system, and its test
accepts the lines that meet the triangle.
-/

namespace BoxTree

variable {K : Type} [Field K]

local instance : Lane K where
  one := 1

theorem Lane.one_eq : (Lane.one : K) = 1 := rfl

namespace PlaneCrossing

variable {origin direction base edge1 edge2 : Vec3 K}

theorem det_solve (origin direction base edge1 edge2 : Vec3 K) :
    (solve origin direction base edge1 edge2).det = -direction.dot (edge1.cross edge2) := by
  simp only [solve, Vec3.dot, Vec3.cross]
  ring

theorem det_swap (origin direction base edge1 edge2 : Vec3 K) :
    (solve origin direction base edge2 edge1).det = -(solve origin direction base edge1 edge2).det := by
  simp only [det_solve, Vec3.dot, Vec3.cross]
  ring

theorem meets_iff (t u v : K) :
    origin + direction.scale t = base + edge1.scale u + edge2.scale v ↔
      origin.x + direction.x * t = base.x + edge1.x * u + edge2.x * v ∧
        origin.y + direction.y * t = base.y + edge1.y * u + edge2.y * v ∧
        origin.z + direction.z * t = base.z + edge1.z * u + edge2.z * v := by
  simp only [Vec3.add_eq, Vec3.scale_eq, Vec3.mk.injEq]

theorem interpolate_corners (base edge1 edge2 : Vec3 K) (u v : K) :
    (⟨u, v⟩ : Barycentric K).interpolate ⟨base, base + edge1, base + edge2⟩ =
      base + edge1.scale u + edge2.scale v := by
  simp only [Barycentric.interpolate, Vec3.add_eq, Vec3.scale_eq, Lane.one_eq, Vec3.mk.injEq]
  exact ⟨by ring, by ring, by ring⟩

/-- Cramer's rule. -/
theorem solve_iff (nonzero : (solve origin direction base edge1 edge2).det ≠ 0) (t u v : K) :
    origin + direction.scale t = base + edge1.scale u + edge2.scale v ↔
      t = (solve origin direction base edge1 edge2).distance ∧
        u = (solve origin direction base edge1 edge2).u ∧
        v = (solve origin direction base edge1 edge2).v := by
  obtain ⟨inverse, unit⟩ : ∃ inverse, inverse = Lane.one / (solve origin direction base edge1 edge2).det :=
    ⟨_, rfl⟩
  have cancels : inverse * (solve origin direction base edge1 edge2).det = 1 := by
    rw [unit]
    exact one_div_mul_cancel nonzero
  rw [meets_iff]
  simp only [solve, Vec3.dot, Vec3.cross, Vec3.sub_eq] at unit cancels ⊢
  rw [← unit]
  clear unit nonzero
  constructor
  · -- Each unknown is left alone by the product with the normal of the other two vectors.
    rintro ⟨onX, onY, onZ⟩
    refine ⟨?_, ?_, ?_⟩
    · linear_combination (-t) * cancels - inverse *
        (onX * (edge1.y * edge2.z - edge1.z * edge2.y) + onY * (edge1.z * edge2.x - edge1.x * edge2.z) +
          onZ * (edge1.x * edge2.y - edge1.y * edge2.x))
    · linear_combination (-u) * cancels - inverse *
        (onX * (direction.y * edge2.z - direction.z * edge2.y) +
          onY * (direction.z * edge2.x - direction.x * edge2.z) +
          onZ * (direction.x * edge2.y - direction.y * edge2.x))
    · linear_combination (-v) * cancels - inverse *
        (onX * (edge1.y * direction.z - edge1.z * direction.y) +
          onY * (edge1.z * direction.x - edge1.x * direction.z) +
          onZ * (edge1.x * direction.y - edge1.y * direction.x))
  · rintro ⟨rfl, rfl, rfl⟩
    refine ⟨?_, ?_, ?_⟩
    · linear_combination (base.x - origin.x) * cancels
    · linear_combination (base.y - origin.y) * cancels
    · linear_combination (base.z - origin.z) * cancels

theorem solve_meets (nonzero : (solve origin direction base edge1 edge2).det ≠ 0) :
    origin + direction.scale (solve origin direction base edge1 edge2).distance =
      base + edge1.scale (solve origin direction base edge1 edge2).u +
        edge2.scale (solve origin direction base edge1 edge2).v :=
  (solve_iff nonzero _ _ _).2 ⟨rfl, rfl, rfl⟩

theorem solve_swap (nonzero : (solve origin direction base edge1 edge2).det ≠ 0) :
    (solve origin direction base edge2 edge1).distance =
        (solve origin direction base edge1 edge2).distance ∧
      (solve origin direction base edge2 edge1).v = (solve origin direction base edge1 edge2).u ∧
      (solve origin direction base edge2 edge1).u = (solve origin direction base edge1 edge2).v := by
  have nonzero' : (solve origin direction base edge2 edge1).det ≠ 0 := by
    rw [det_swap]
    exact neg_ne_zero.2 nonzero
  apply (solve_iff nonzero _ _ _).1
  rw [solve_meets nonzero']
  simp only [Vec3.add_eq, Vec3.mk.injEq]
  exact ⟨add_right_comm .., add_right_comm .., add_right_comm ..⟩

end PlaneCrossing

/-- The points of a triangle are the weighted means of its corners. -/
def Triangle.Covers [LinearOrder K] (t : Triangle (Vec3 K)) (p : Vec3 K) : Prop :=
  ∃ a b c : K, 0 ≤ a ∧ 0 ≤ b ∧ 0 ≤ c ∧ a + b + c = 1 ∧ p = t.a.scale a + t.b.scale b + t.c.scale c

theorem Triangle.covers_iff [LinearOrder K] [IsStrictOrderedRing K] (t : Triangle (Vec3 K)) (p : Vec3 K) :
    t.Covers p ↔ ∃ u v : K, 0 ≤ u ∧ 0 ≤ v ∧ u + v ≤ 1 ∧ p = (⟨u, v⟩ : Barycentric K).interpolate t := by
  constructor
  · rintro ⟨a, b, c, first, second, third, whole, same⟩
    refine ⟨b, c, second, third, by linarith, ?_⟩
    have rest : a = Lane.one - b - c := by
      rw [Lane.one_eq, ← whole]
      ring
    rw [same, rest]
    rfl
  · rintro ⟨u, v, first, second, whole, same⟩
    exact ⟨Lane.one - u - v, u, v, by rw [Lane.one_eq]; linarith, first, second,
      by rw [Lane.one_eq]; ring, same⟩

namespace PlaneCrossing

variable [LinearOrder K] {origin direction base edge1 edge2 : Vec3 K}

theorem accepted_iff (c : PlaneCrossing K) :
    c.accepted = true ↔ c.det ≠ 0 ∧ 0 ≤ c.u ∧ 0 ≤ c.v ∧ c.u + c.v ≤ 1 := by
  simp only [accepted, Bool.and_eq_true, bne_iff_ne, decide_eq_true_eq, and_assoc]
  rfl

theorem accepted_swap (nonzero : (solve origin direction base edge1 edge2).det ≠ 0) :
    (solve origin direction base edge2 edge1).accepted =
      (solve origin direction base edge1 edge2).accepted := by
  obtain ⟨_, first, second⟩ := solve_swap nonzero
  rw [Bool.eq_iff_iff, accepted_iff, accepted_iff, first, second, det_swap, neg_ne_zero, add_comm]
  tauto

variable [IsStrictOrderedRing K]

theorem accepted_solve_iff (nonzero : (solve origin direction base edge1 edge2).det ≠ 0) :
    (solve origin direction base edge1 edge2).accepted = true ↔
      ∃ t, Triangle.Covers ⟨base, base + edge1, base + edge2⟩ (origin + direction.scale t) := by
  simp only [accepted_iff, Triangle.covers_iff, interpolate_corners]
  constructor
  · rintro ⟨_, first, second, whole⟩
    exact ⟨_, _, _, first, second, whole, solve_meets nonzero⟩
  · rintro ⟨t, u, v, first, second, whole, meets⟩
    obtain ⟨_, rfl, rfl⟩ := (solve_iff nonzero t u v).1 meets
    exact ⟨nonzero, first, second, whole⟩

/-- Over an ordered field a line that is not parallel to a triangle crosses its plane once, where the
formula says. The test finds out whether that is in the triangle, and the order of the edges does not
matter. -/
theorem solve_exact (origin direction base edge1 edge2 : Vec3 K) :
    (solve origin direction base edge1 edge2).det = -direction.dot (edge1.cross edge2) ∧
    ((solve origin direction base edge1 edge2).det ≠ 0 →
      let c := solve origin direction base edge1 edge2
      let swapped := solve origin direction base edge2 edge1
      (∀ t u v, origin + direction.scale t = base + edge1.scale u + edge2.scale v ↔
        t = c.distance ∧ u = c.u ∧ v = c.v) ∧
      (c.accepted = true ↔ 0 ≤ c.u ∧ 0 ≤ c.v ∧ c.u + c.v ≤ 1) ∧
      (c.accepted = true ↔
        ∃ t, Triangle.Covers ⟨base, base + edge1, base + edge2⟩ (origin + direction.scale t)) ∧
      (⟨c.u, c.v⟩ : Barycentric K).interpolate ⟨base, base + edge1, base + edge2⟩ =
        origin + direction.scale c.distance ∧
      swapped.distance = c.distance ∧ swapped.accepted = c.accepted ∧ swapped.u = c.v ∧
      swapped.v = c.u) := by
  refine ⟨det_solve .., fun nonzero => ⟨solve_iff nonzero, ?_, accepted_solve_iff nonzero, ?_, ?_⟩⟩
  · rw [accepted_iff]
    exact and_iff_right nonzero
  · rw [interpolate_corners]
    exact (solve_meets nonzero).symm
  · obtain ⟨distance, v, u⟩ := solve_swap nonzero
    exact ⟨distance, accepted_swap nonzero, u, v⟩

theorem solve_exact_slanted :
    (solve (α := ℚ) ⟨0, 0, 0⟩ ⟨1, 0, 5⟩ ⟨-1, -1, 5⟩ ⟨4, 0, 0⟩ ⟨0, 4, 0⟩).distance = 1 ∧
      (solve (α := ℚ) ⟨0, 0, 0⟩ ⟨1, 0, 5⟩ ⟨-1, -1, 5⟩ ⟨4, 0, 0⟩ ⟨0, 4, 0⟩).accepted = true := by
  obtain ⟨det, spec⟩ := solve_exact (K := ℚ) ⟨0, 0, 0⟩ ⟨1, 0, 5⟩ ⟨-1, -1, 5⟩ ⟨4, 0, 0⟩ ⟨0, 4, 0⟩
  have nonzero : (solve (α := ℚ) ⟨0, 0, 0⟩ ⟨1, 0, 5⟩ ⟨-1, -1, 5⟩ ⟨4, 0, 0⟩ ⟨0, 4, 0⟩).det ≠ 0 := by
    rw [det]
    norm_num [Vec3.dot, Vec3.cross]
  obtain ⟨unique, inside, _⟩ := spec nonzero
  obtain ⟨distance, u, v⟩ := (unique 1 (1 / 2) (1 / 4)).1 (by norm_num [Vec3.add_eq, Vec3.scale_eq])
  refine ⟨distance.symm, inside.2 ?_⟩
  rw [← u, ← v]
  norm_num

end PlaneCrossing

end BoxTree

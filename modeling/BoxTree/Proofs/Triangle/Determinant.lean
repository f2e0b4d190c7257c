import BoxTree.Proofs.Ray
import BoxTree.Proofs.Scalar.Error
import BoxTree.Triangle.Intersection

/-!
# The error of the determinant

The determinant of a ray and a triangle goes through six roundings in a row: those of an edge, a product and a
difference for a component of the cross product, and a product and two sums for the dot product.
What they add up to is small next to the terms of the determinant.
-/

namespace BoxTree
open Scalar

namespace Scalar

variable {x y : Float32} {a b m n d e : ℚ} {k l : ℕ}

theorem near_sub (finite : (x - y).isFinite = true) (few : k ≤ 0x1000000)
    (first : Near (value x) a m k d) (second : Near (value y) b n k e) :
    Near (value (x - y)) (a - b) (m + n) (k + 2) (2 * (d + e)) := by
  have rounded := (first.sub second).round few le_rfl ((sub_error finite).trans (add_zero _).ge)
  rwa [add_zero] at rounded

theorem near_add (finite : (x + y).isFinite = true) (few : k ≤ 0x1000000)
    (first : Near (value x) a m k d) (second : Near (value y) b n k e) :
    Near (value (x + y)) (a + b) (m + n) (k + 2) (2 * (d + e)) := by
  have rounded := (first.add second).round few le_rfl ((add_error finite).trans (add_zero _).ge)
  rwa [add_zero] at rounded

theorem near_mul (finite : (x * y).isFinite = true) (few : k + l < 0x1000000)
    (few' : k * l ≤ 0x1000000) (first : Near (value x) a m k 0) (second : Near (value y) b n l e) :
    Near (value (x * y)) (a * b) (m * n) (k + l + 3) (4 * m * e + leastError) := by
  obtain ⟨finiteX, finiteY⟩ := finite_of_mul finite
  have rounded := (first.mul second (by omega) few').round few leastError_nonneg
    (mul_error finite finiteX finiteY)
  have twice : 2 * (2 * m * e) = 4 * m * e := by ring
  rwa [twice] at rounded

theorem near_difference (finite : (x - y).isFinite = true) :
    Near (value (x - y)) (value x - value y) |value x - value y| 2 0 := by
  have rounded := (Near.exact _).round (Nat.zero_le _) le_rfl
    ((sub_error finite).trans (add_zero _).ge)
  rwa [mul_zero, add_zero] at rounded

end Scalar

namespace Vec3

section

variable {α : Type} [Sub α]

theorem get_sub (v w : Vec3 α) (axis : Axis) : (v - w).get axis = v.get axis - w.get axis :=
  get_zipWith _ v w axis

theorem get_cross [Mul α] (v w : Vec3 α) (axis : Axis) :
    (v.cross w).get axis =
      v.get axis.next * w.get axis.next.next - v.get axis.next.next * w.get axis.next := by
  cases axis <;> rfl

end

def reach (v w : Vec3 ℚ) : Vec3 ℚ :=
  .ofFn fun axis =>
    |v.get axis.next| * |w.get axis.next.next| + |v.get axis.next.next| * |w.get axis.next|

theorem near_get_sub {p q : Vec3 Float32} {axis : Axis} (finite : ((p - q).get axis).isFinite = true) :
    Near (value ((p - q).get axis)) ((p.map value - q.map value).get axis)
      |(p.map value - q.map value).get axis| 2 0 := by
  rw [get_sub] at finite
  rw [get_sub, get_sub, get_map, get_map]
  exact near_difference finite

theorem near_get_cross {d p q : Vec3 Float32} {axis : Axis}
    (finite : ((d.cross (p - q)).get axis).isFinite = true) :
    Near (value ((d.cross (p - q)).get axis))
      (((d.map value).cross (p.map value - q.map value)).get axis)
      ((reach (d.map value) (p.map value - q.map value)).get axis) 7 (4 * leastError) := by
  rw [get_cross] at finite
  obtain ⟨finiteFirst, finiteSecond⟩ := finite_of_sub finite
  have first := near_mul finiteFirst (by decide) (by decide) (Near.exact _)
    (near_get_sub (finite_of_mul finiteFirst).2)
  have second := near_mul finiteSecond (by decide) (by decide) (Near.exact _)
    (near_get_sub (finite_of_mul finiteSecond).2)
  have both := near_sub finite (by decide) first second
  have rest (v w : ℚ) :
      2 * (4 * v * 0 + leastError + (4 * w * 0 + leastError)) = 4 * leastError := by ring
  rw [rest] at both
  rw [get_cross, get_cross, reach, get_ofFn, get_map, get_map]
  exact both

end Vec3

namespace Triangle

def determinant (t : Facet) (ray : Ray) : Float32 :=
  (PlaneCrossing.solve ray.origin ray.direction t.a (t.b - t.a) (t.c - t.a)).det

/-- The determinant of the corners and the direction without any rounding. -/
def exactDeterminant (t : Facet) (ray : Ray) : ℚ :=
  (t.b.map value - t.a.map value).dot
    ((ray.direction.map value).cross (t.c.map value - t.a.map value))

/-- The most that rounding may change the determinant, if nothing is too large. -/
def noise (t : Facet) (ray : Ray) : ℚ :=
  let edge := t.b.map value - t.a.map value
  let reach := (ray.direction.map value).reach (t.c.map value - t.a.map value)
  16 * unitError * (|edge.x| * reach.x + |edge.y| * reach.y + |edge.z| * reach.z) +
    64 * leastError * (|edge.x| + |edge.y| + |edge.z| + 1)

theorem near_term (t : Facet) (ray : Ray) (axis : Axis)
    (finite : ((t.b - t.a).get axis * (ray.direction.cross (t.c - t.a)).get axis).isFinite = true) :
    let edge := t.b.map value - t.a.map value
    let edge' := t.c.map value - t.a.map value
    Near (value ((t.b - t.a).get axis * (ray.direction.cross (t.c - t.a)).get axis))
      (edge.get axis * ((ray.direction.map value).cross edge').get axis)
      (|edge.get axis| * ((ray.direction.map value).reach edge').get axis) 12
      ((16 * |edge.get axis| + 1) * leastError) := by
  obtain ⟨finiteEdge, finiteCross⟩ := finite_of_mul finite
  have product := near_mul finite (by decide) (by decide) (Vec3.near_get_sub finiteEdge)
    (Vec3.near_get_cross finiteCross)
  have rest (w : ℚ) : 4 * w * (4 * leastError) + leastError = (16 * w + 1) * leastError := by ring
  rw [rest] at product
  exact product

theorem abs_determinant_sub_le {t : Facet} {ray : Ray} (finite : (t.determinant ray).isFinite = true) :
    |value (t.determinant ray) - t.exactDeterminant ray| ≤ t.noise ray := by
  obtain ⟨finiteTwo, finiteZ⟩ := finite_of_add finite
  obtain ⟨finiteX, finiteY⟩ := finite_of_add finiteTwo
  have x := near_term t ray .x finiteX
  have y := near_term t ray .y finiteY
  have z := near_term t ray .z finiteZ
  have sum := near_add finite (by decide) (near_add finiteTwo (by decide) x y) (z.weaken (by decide))
  have least := leastError_nonneg
  have last : 0 ≤ leastError * |(t.b.map value - t.a.map value).z| := mul_nonneg least (abs_nonneg _)
  refine sum.error.trans ?_
  simp only [noise, Vec3.get]
  push_cast
  linarith

end Triangle

end BoxTree

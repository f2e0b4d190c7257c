import BoxTree.Node
import BoxTree.Proofs.Scalar.Sums

/-!
# Slabs

The test of one box and the test of the boxes of a node ask the same of a distance: on no axis may it
lie before the near plane, nor further behind the far plane than the slack allows. So both tests find
the same intervals. With wider limits the intervals are wider.
-/

namespace BoxTree
open Scalar

structure Interval.Contains (wide narrow : Interval) : Prop where
  entry : wide.entry ≤ narrow.entry
  exit : narrow.exit ≤ wide.exit

namespace Interval

theorem Contains.nonempty {wide narrow : Interval} (contains : wide.Contains narrow)
    (nonempty : narrow.Nonempty) : wide.Nonempty :=
  le_trans_scalar (le_trans_scalar contains.entry nonempty) contains.exit

theorem nonempty?_eq_some {i interval : Interval} :
    i.nonempty? = some interval ↔ i.Nonempty ∧ i = interval := by
  rw [nonempty?, Option.ite_none_right_eq_some, Option.some_inj]

theorem isSome_nonempty? (i : Interval) : i.nonempty?.isSome = true ↔ i.Nonempty := by
  rw [nonempty?, Option.isSome_ite]

theorem Contains.nonempty? {wide narrow interval : Interval} (contains : wide.Contains narrow)
    (given : narrow.nonempty? = some interval) :
    wide.nonempty? = some wide ∧ wide.Contains interval := by
  obtain ⟨nonempty, rfl⟩ := nonempty?_eq_some.1 given
  exact ⟨nonempty?_eq_some.2 ⟨contains.nonempty nonempty, rfl⟩, contains⟩

/-- Intervals with the same ends, where both zeros are the same. -/
structure Equals (i j : Interval) : Prop where
  entry : (i.entry == j.entry) = true
  exit : (i.exit == j.exit) = true

theorem Contains.antisymm {i j : Interval} (outer : i.Contains j) (inner : j.Contains i) :
    i.Equals j :=
  ⟨beq_of_le_of_le outer.entry inner.entry, beq_of_le_of_le inner.exit outer.exit⟩

end Interval

namespace Ray

def nearPlane (ray : Ray) (b : Box) (axis : Axis) : Float32 :=
  if isNegative (ray.inverse.get axis) then b.upper.get axis else b.lower.get axis

def farPlane (ray : Ray) (b : Box) (axis : Axis) : Float32 :=
  if isNegative (ray.inverse.get axis) then b.lower.get axis else b.upper.get axis

def nearDistance (ray : Ray) (b : Box) (axis : Axis) : Float32 :=
  ray.planeDistance axis (ray.nearPlane b axis) negativeInfinity

def farDistance (ray : Ray) (b : Box) (axis : Axis) : Float32 :=
  ray.planeDistance axis (ray.farPlane b axis) infinity

def span (ray : Ray) (b : Box) (tMin tMax : Float32) : Interval where
  entry := Axis.all.foldl (fun acc axis => maxNum acc (ray.nearDistance b axis)) tMin
  exit := widenFar (Axis.all.foldl (fun acc axis => minNum acc (ray.farDistance b axis)) tMax)

/-- A distance that lies in all slabs of a box. Distances of planes that are not numbers do not count.
-/
def Within (ray : Ray) (b : Box) (d : Float32) : Prop :=
  ∀ axis, ¬d < ray.nearDistance b axis ∧
    ((ray.farDistance b axis).isNaN = false → d ≤ widenFar (ray.farDistance b axis))

/-- A distance at which the test of a box says that the ray is in the box. -/
def Admits (ray : Ray) (b : Box) (maxT d : Float32) : Prop :=
  ∃ interval, ray.clip? b ray.minT maxT = some interval ∧ interval.entry ≤ d ∧ d ≤ interval.exit

variable {ray : Ray} {b : Box} {d tMin tMax maxT : Float32}

/-! ## One box -/

theorem distances_forward {axis : Axis} (forward : isNegative (ray.inverse.get axis) = false) (b : Box) :
    ray.nearDistance b axis = ray.planeDistance axis (b.lower.get axis) negativeInfinity ∧
      ray.farDistance b axis = ray.planeDistance axis (b.upper.get axis) infinity := by
  rw [nearDistance, farDistance, nearPlane, farPlane, forward]
  exact ⟨rfl, rfl⟩

theorem distances_backward {axis : Axis} (backward : isNegative (ray.inverse.get axis) = true) (b : Box) :
    ray.nearDistance b axis = ray.planeDistance axis (b.upper.get axis) negativeInfinity ∧
      ray.farDistance b axis = ray.planeDistance axis (b.lower.get axis) infinity := by
  rw [nearDistance, farDistance, nearPlane, farPlane, backward]
  exact ⟨rfl, rfl⟩

theorem clipSlab_eq (i : Interval) (axis : Axis) :
    ray.clipSlab b i axis =
      ⟨maxNum i.entry (ray.nearDistance b axis), minNum i.exit (ray.farDistance b axis)⟩ := by
  unfold clipSlab nearDistance farDistance nearPlane farPlane
  by_cases negative : isNegative (ray.inverse.get axis) = true
  · simp only [if_pos negative]
  · simp only [if_neg negative]

theorem foldl_clipSlab (axes : List Axis) (i : Interval) :
    axes.foldl (ray.clipSlab b) i =
      ⟨axes.foldl (fun acc axis => maxNum acc (ray.nearDistance b axis)) i.entry,
        axes.foldl (fun acc axis => minNum acc (ray.farDistance b axis)) i.exit⟩ := by
  induction axes generalizing i with
  | nil => rfl
  | cons axis axes ih => rw [List.foldl_cons, ih, clipSlab_eq, List.foldl_cons, List.foldl_cons]

theorem clip?_eq : ray.clip? b tMin tMax = (ray.span b tMin tMax).nonempty? := by
  unfold clip?
  rw [foldl_clipSlab]
  rfl

theorem span_contains {near far near' far' : Float32} (nearer : near' ≤ near) (farther : far ≤ far') :
    (ray.span b near' far').Contains (ray.span b near far) where
  entry := foldl_maxNum_mono nearer
  exit := widenFar_mono (foldl_minNum_mono farther)

theorem clip?_contains {near far near' far' : Float32} {interval : Interval} (nearer : near' ≤ near)
    (farther : far ≤ far') (clipped : ray.clip? b near far = some interval) :
    ∃ wide, ray.clip? b near' far' = some wide ∧ wide.Contains interval := by
  rw [clip?_eq] at clipped ⊢
  exact ⟨_, (span_contains nearer farther).nonempty? clipped⟩

theorem entry_le_iff (numberMin : tMin.isNaN = false) (numberD : d.isNaN = false) :
    (ray.span b tMin tMax).entry ≤ d ↔ tMin ≤ d ∧ ∀ axis, ¬d < ray.nearDistance b axis := by
  rw [span, ← not_lt_iff numberD (isNaN_foldl_maxNum numberMin), lt_foldl_maxNum, not_or,
    not_lt_iff numberD numberMin]
  simp only [Axis.mem_all, true_and, not_exists]

theorem le_exit_iff (numberMax : tMax.isNaN = false) :
    d ≤ (ray.span b tMin tMax).exit ↔ d ≤ widenFar tMax ∧
      ∀ axis, (ray.farDistance b axis).isNaN = false → d ≤ widenFar (ray.farDistance b axis) := by
  constructor
  · intro le
    exact ⟨le_trans_scalar le (widenFar_mono (foldl_minNum_le_start numberMax)), fun axis number =>
      le_trans_scalar le (widenFar_mono (foldl_minNum_le numberMax (Axis.mem_all axis) number))⟩
  · -- The far end comes from the far limit or from one of the far planes.
    rintro ⟨limited, planes⟩
    have number : (Axis.all.foldl (fun acc axis => minNum acc (ray.farDistance b axis)) tMax).isNaN =
        false := isNaN_foldl_minNum numberMax
    rw [span]
    rcases @foldl_minNum_eq_or Axis (ray.farDistance b) Axis.all tMax with limit | ⟨axis, _, plane⟩
    · rw [limit]
      exact limited
    · rw [plane] at number ⊢
      exact planes axis number

theorem mem_span_iff (numberMin : tMin.isNaN = false) (numberMax : tMax.isNaN = false)
    (numberD : d.isNaN = false) :
    ((ray.span b tMin tMax).entry ≤ d ∧ d ≤ (ray.span b tMin tMax).exit) ↔
      tMin ≤ d ∧ d ≤ widenFar tMax ∧ ray.Within b d := by
  rw [entry_le_iff numberMin numberD, le_exit_iff numberMax]
  simp only [Within, forall_and]
  tauto

theorem isSome_clip?_iff : (ray.clip? b tMin tMax).isSome = true ↔
    ∃ d, (ray.span b tMin tMax).entry ≤ d ∧ d ≤ (ray.span b tMin tMax).exit := by
  rw [clip?_eq, Interval.isSome_nonempty?]
  constructor
  · intro nonempty
    exact ⟨_, le_refl_scalar (le_iff.1 nonempty).1, nonempty⟩
  · rintro ⟨d, entered, left⟩
    exact le_trans_scalar entered left

theorem within_of_admits (far : d ≤ maxT) (admits : ray.Admits b maxT d) : ray.Within b d := by
  obtain ⟨interval, clipped, entered, left⟩ := admits
  rw [clip?_eq] at clipped
  obtain ⟨_, rfl⟩ := Interval.nonempty?_eq_some.1 clipped
  intro axis
  refine ⟨fun before => ?_, ((le_exit_iff (le_iff.1 far).2.1).1 left).2 axis⟩
  exact (not_lt_iff (le_iff.1 entered).2.1 (le_iff.1 entered).1).2 entered
    (lt_foldl_maxNum.2 (.inr ⟨axis, Axis.mem_all axis, before⟩))

theorem span_within (within : ray.Within b d) (entered : tMin ≤ d) (left : d ≤ tMax) :
    (ray.span b tMin tMax).entry ≤ d ∧ d ≤ (ray.span b tMin tMax).exit := by
  obtain ⟨numberD, numberMax, _⟩ := le_iff.1 left
  exact (mem_span_iff (le_iff.1 entered).1 numberMax numberD).2
    ⟨entered, le_trans_scalar left (le_widenFar numberMax), within⟩

/-! ## The boxes of a node -/

/-- The distance to a plane as a node computes it, to a far plane with the sign turned. -/
def packedDistance (ray : Ray) (axis : Axis) (plane sign : Float32) : Float32 :=
  if plane - ray.origin.get axis == 0 && ray.direction.get axis == 0 then negativeInfinity
  else (plane - ray.origin.get axis) * ray.inverse.get axis * sign

def packedClip (ray : Ray) (b : Box) (tMin tMax : Float32) : Interval where
  entry := Axis.all.foldl
    (fun acc axis => maxNum acc (ray.packedDistance axis (ray.nearPlane b axis) 1)) tMin
  exit := widenFar (-Axis.all.foldl
    (fun acc axis => maxNum acc (ray.packedDistance axis (ray.farPlane b axis) (-1))) (-tMax))

theorem planes_eq (n : Node) (ray : Ray) (axis : Axis) :
    n.planes ray axis = ⟨ray.nearPlane n.left.box axis, ray.nearPlane n.right.box axis,
      ray.farPlane n.left.box axis, ray.farPlane n.right.box axis⟩ := by
  unfold Node.planes nearPlane farPlane
  split <;> rfl

theorem planeDistances_eq (n : Node) (ray : Ray) (axis : Axis) :
    n.planeDistances ray axis = ⟨ray.packedDistance axis (ray.nearPlane n.left.box axis) 1,
      ray.packedDistance axis (ray.nearPlane n.right.box axis) 1,
      ray.packedDistance axis (ray.farPlane n.left.box axis) (-1),
      ray.packedDistance axis (ray.farPlane n.right.box axis) (-1)⟩ := by
  unfold Node.planeDistances
  rw [planes_eq]
  rfl

theorem clip_eq (n : Node) (ray : Ray) (tMin tMax : Float32) :
    n.clip ray tMin tMax =
      ⟨ray.packedClip n.left.box tMin tMax, ray.packedClip n.right.box tMin tMax⟩ := by
  simp only [Node.clip, Axis.all, List.foldl_cons, List.foldl_nil, planeDistances_eq]
  rfl

theorem get_clip (n : Node) (ray : Ray) (tMin tMax : Float32) (side : Side) :
    (n.clip ray tMin tMax).get side = ray.packedClip (n.child side).box tMin tMax := by
  rw [clip_eq]
  cases side <;> rfl

/-- Both tests leave a plane out, or both take the product. Where only the test of a box leaves the plane
out, because plane and origin are infinite, the product is not a number. -/
theorem packedDistance_cases (ray : Ray) (axis : Axis) (plane sign unbounded : Float32) :
    (ray.packedDistance axis plane sign = negativeInfinity ∧
      ray.planeDistance axis plane unbounded = unbounded) ∨
    ∃ t, ray.packedDistance axis plane sign = t * sign ∧
      (ray.planeDistance axis plane unbounded = t ∨
        t.isNaN = true ∧ ray.planeDistance axis plane unbounded = unbounded) := by
  unfold packedDistance planeDistance
  cases parallel : ray.direction.get axis == 0 with
  | false =>
      rw [Bool.and_false, Bool.false_and, if_neg Bool.false_ne_true, if_neg Bool.false_ne_true]
      exact .inr ⟨_, rfl, .inl rfl⟩
  | true =>
      rw [Bool.and_true, Bool.true_and]
      by_cases zero : (plane - ray.origin.get axis == 0) = true
      · rw [if_pos zero, if_pos (sub_beq_zero_iff.1 zero).2.2]
        exact .inl ⟨rfl, rfl⟩
      · right
        rw [if_neg zero]
        by_cases inPlane : (plane == ray.origin.get axis) = true
        · rw [if_pos inPlane]
          have nan := (isNaN_sub_of_beq inPlane).resolve_left zero
          exact ⟨_, rfl, .inr ⟨isNaN_mul_of_isNaN nan _, rfl⟩⟩
        · rw [if_neg inPlane]
          exact ⟨_, rfl, .inl rfl⟩

theorem lt_packedDistance {axis : Axis} {plane : Float32} :
    d < ray.packedDistance axis plane 1 ↔ d < ray.planeDistance axis plane negativeInfinity := by
  rcases ray.packedDistance_cases axis plane 1 negativeInfinity with
    ⟨packed, unbounded⟩ | ⟨t, packed, product | ⟨nan, unbounded⟩⟩
  · rw [packed, unbounded]
  · rw [packed, product, lt_mul_one]
  · rw [packed, unbounded, lt_mul_one]
    exact iff_of_false (not_lt_of_isNaN (.inr nan)) (not_lt_negativeInfinity d)

theorem lt_packedDistance_turned {axis : Axis} {plane : Float32} (number : d.isNaN = false) :
    -d < ray.packedDistance axis plane (-1) ↔ ray.planeDistance axis plane infinity < d := by
  rcases ray.packedDistance_cases axis plane (-1) infinity with
    ⟨packed, unbounded⟩ | ⟨t, packed, product | ⟨nan, unbounded⟩⟩
  · rw [packed, unbounded]
    exact iff_of_false (not_lt_negativeInfinity _) (not_infinity_lt d)
  · rw [packed, product, neg_lt_mul_neg_one number]
  · rw [packed, unbounded, neg_lt_mul_neg_one number]
    exact iff_of_false (not_lt_of_isNaN (.inl nan)) (not_infinity_lt d)

theorem span_packedClip (b : Box) (numberMin : tMin.isNaN = false) (numberMax : tMax.isNaN = false) :
    (ray.span b tMin tMax).Contains (ray.packedClip b tMin tMax) ∧
      (ray.packedClip b tMin tMax).Contains (ray.span b tMin tMax) := by
  have entryPacked : (ray.packedClip b tMin tMax).entry.isNaN = false := isNaN_foldl_maxNum numberMin
  have entry : (ray.span b tMin tMax).entry.isNaN = false := isNaN_foldl_maxNum numberMin
  have entries (d : Float32) :
      d < (ray.packedClip b tMin tMax).entry ↔ d < (ray.span b tMin tMax).entry := by
    simp only [packedClip, span, lt_foldl_maxNum, lt_packedDistance, nearDistance]
  obtain ⟨below, above⟩ := @foldl_minNum_turned Axis
    (fun axis => ray.packedDistance axis (ray.farPlane b axis) (-1)) (ray.farDistance b) Axis.all tMax
    numberMax fun axis d => lt_packedDistance_turned
  exact ⟨⟨le_of_forall_lt entry entryPacked fun d => (entries d).2, widenFar_mono above⟩,
    ⟨le_of_forall_lt entryPacked entry fun d => (entries d).1, widenFar_mono below⟩⟩

theorem packedClip_within (within : ray.Within b d) (entered : tMin ≤ d) (left : d ≤ tMax) :
    (ray.packedClip b tMin tMax).entry ≤ d ∧ d ≤ (ray.packedClip b tMin tMax).exit := by
  obtain ⟨_, contains⟩ := ray.span_packedClip b (le_iff.1 entered).1 (le_iff.1 left).2.1
  obtain ⟨entry, exit⟩ := span_within within entered left
  exact ⟨le_trans_scalar contains.entry entry, le_trans_scalar exit contains.exit⟩

theorem packedClip_contains {near far near' far' : Float32} (nearer : near' ≤ near)
    (farther : far ≤ far') :
    (ray.packedClip b near' far').Contains (ray.packedClip b near far) where
  entry := foldl_maxNum_mono nearer
  exit := widenFar_mono (neg_antitone (foldl_maxNum_mono (neg_antitone farther)))

def vertical : Ray := ⟨⟨0, 0, 0⟩, ⟨0, -0, 1⟩, ⟨largest, -largest, 1⟩, 0⟩

end Ray

namespace Node

variable {tMin tMax : Float32}

/-- The test of a node finds a child just when the test of its box does, over the same distances. This
holds for boxes and rays of any kind. -/
theorem clip_iff (n : Node) (ray : Ray) (numberMin : tMin.isNaN = false)
    (numberMax : tMax.isNaN = false) (side : Side) :
    (((n.clip ray tMin tMax).get side).Nonempty ↔
        (ray.clip? (n.child side).box tMin tMax).isSome = true) ∧
      ∀ interval, ray.clip? (n.child side).box tMin tMax = some interval →
        ((n.clip ray tMin tMax).get side).Equals interval := by
  obtain ⟨outer, inner⟩ := ray.span_packedClip (n.child side).box numberMin numberMax
  rw [Ray.get_clip, Ray.clip?_eq]
  constructor
  · rw [Interval.isSome_nonempty?]
    exact ⟨outer.nonempty, inner.nonempty⟩
  · intro interval found
    obtain ⟨_, rfl⟩ := Interval.nonempty?_eq_some.1 found
    exact inner.antisymm outer

/-- A node for `Ray.vertical`, which lies in planes of the left box. The right box has a plane as near to
the ray as a plane can be, and a corner that is not a number. -/
def tower : Node :=
  ⟨⟨⟨⟨0, -1, 5⟩, ⟨infinity, 0, 10⟩⟩, .missing⟩,
    ⟨⟨⟨-1, -Float32.ofBits 1, 5⟩, ⟨1, 1, Float32.ofBits 0x7fc00000⟩⟩, .missing⟩⟩

theorem clip_iff_vertical :
    ∃ interval, Ray.vertical.clip? tower.left.box 0 infinity = some interval ∧
      (tower.clip Ray.vertical 0 infinity).left.Equals interval ∧
      Ray.vertical.clip? tower.right.box 0 infinity = none ∧
      ¬(tower.clip Ray.vertical 0 infinity).right.Nonempty := by
  obtain ⟨interval, found⟩ := Option.isSome_iff_exists.1
    (show (Ray.vertical.clip? tower.left.box 0 infinity).isSome = true by decide +kernel)
  have missed : Ray.vertical.clip? tower.right.box 0 infinity = none :=
    Option.isNone_iff_eq_none.1 (by decide +kernel)
  have left := @clip_iff 0 infinity tower Ray.vertical rfl isNaN_infinity .left
  have right := @clip_iff 0 infinity tower Ray.vertical rfl isNaN_infinity .right
  refine ⟨interval, found, left.2 interval found, missed, fun nonempty => ?_⟩
  have isSome : (Ray.vertical.clip? tower.right.box 0 infinity).isSome = true := right.1.1 nonempty
  rw [missed] at isSome
  cases isSome

end Node

end BoxTree

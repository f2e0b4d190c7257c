import BoxTree.Proofs.Build.Binned
import BoxTree.Proofs.Scalar.Truncate

/-!
# Plans of binned builds

Bins are in the order of the coordinates, whatever the scale of the bins is rounded to. So a split between two
bins puts the triangles on its left below those on its right.
-/

namespace BoxTree.Binned
open Scalar Portion

variable {n : Nat}

/-! ## The order of bins -/

namespace Binning

variable {b : Binning} {axis : Axis} {centroids : Box} {count : Nat} {x y : Vec3 Float32}

theorem of?_scale (given : of? axis centroids count = some b) :
    ¬b.scale < 0 ∧ (b.origin.isFinite = true ∨ Void b.scale) := by
  unfold of? at given
  simp only at given
  split at given
  · next long =>
      rw [← Option.some.inj given]
      obtain ⟨_, number, _⟩ := lt_iff_key.1 long
      rcases finite_or_infinity number with finite | ⟨s, infinite⟩
      · obtain ⟨finiteCount, nonneg⟩ := ofCount_finite count
        exact ⟨not_div_neg finiteCount nonneg finite long, .inl (finite_of_sub finite).2⟩
      · have void := void_div_infinity (ofCount count) infinite
        exact ⟨void.not_neg, .inr void⟩
  · cases given

theorem bin_mono (given : of? axis centroids count = some b) (le : x.get b.axis ≤ y.get b.axis) :
    b.bin x ≤ b.bin y := by
  obtain ⟨notNegative, finite | void⟩ := of?_scale given
  · exact min_le_min_right _ (truncate_mul_mono notNegative (sub_mono finite le))
  · rw [bin, bin, truncate_of_void (void.mul_right _), truncate_of_void (void.mul_right _)]

theorem bin_of_isNaN (nan : (x.get b.axis).isNaN = true) : b.bin x = 0 := by
  have offset : ((x.get b.axis - b.origin) * b.scale).isNaN = true :=
    isNaN_mul_of_isNaN (isNaN_sub_of_isNaN nan b.origin) b.scale
  rw [bin, truncate_of_void (.inr offset), Nat.zero_min]

theorem lt_of_bin_lt (given : of? axis centroids count = some b)
    (number : (x.get b.axis).isNaN = false) (less : b.bin x < b.bin y) : x.get b.axis < y.get b.axis := by
  have numberY : (y.get b.axis).isNaN = false := by
    rw [← Bool.not_eq_true]
    intro nan
    rw [bin_of_isNaN nan] at less
    exact Nat.not_lt_zero _ less
  by_contra notLess
  exact less.not_ge (bin_mono given ((not_lt_iff number numberY).1 notLess))

end Binning

/-! ## Plans -/

variable {p : Primitives n} {s : Settings} {triangles left right : List (Fin n)} {bounds : Box}
  {split : Split BinSplit}

structure Divides (triangles left right : List (Fin n)) : Prop where
  perm : (left ++ right).Perm triangles
  positive : 0 < left.length
  less : left.length < triangles.length

structure Between (p : Primitives n) (s : Settings) (triangles : List (Fin n)) (place : BinSplit)
    (left right : List (Fin n)) : Prop where
  binned : ∃ axis, Binning.of? axis (p.centroidBoundsOf triangles) s.binCount = some place.binning
  counted : left.length = total ((place.binning.fill p triangles).toList.take place.position)
  before : ∀ i ∈ left, place.binning.bin (p.centroid i) < place.position
  after : ∀ j ∈ right, place.position ≤ place.binning.bin (p.centroid j)
  below : ∀ i ∈ left, ((p.centroid i).get place.binning.axis).isNaN = false → ∀ j ∈ right,
    (p.centroid i).get place.binning.axis < (p.centroid j).get place.binning.axis

theorem divides_of_cuts {count : Nat} (cuts : Cuts triangles left right count) (positive : 0 < count)
    (less : count < triangles.length) : Divides triangles left right where
  perm := cuts.perm
  positive := by rwa [cuts.left]
  less := by rwa [cuts.left]

theorem between_of_cuts (found : bestSplit? p s triangles bounds = some split)
    (cuts : Cuts triangles left right split.leftCount)
    (before : ∀ i ∈ left, split.how.binning.bin (p.centroid i) < split.how.position)
    (after : ∀ j ∈ right, ¬split.how.binning.bin (p.centroid j) < split.how.position) :
    Between p s triangles split.how left right := by
  obtain ⟨axis, along⟩ := bestSplit?_along found
  obtain ⟨binned, total⟩ := splitAlong?_binned along
  refine ⟨⟨axis, binned⟩, cuts.left.trans total, before, fun j member => not_lt.1 (after j member), ?_⟩
  intro i memberI number j memberJ
  exact Binning.lt_of_bin_lt binned number ((before i memberI).trans_le (not_lt.1 (after j memberJ)))

/-- What a plan comes to: the triangles stay together, or are split between two bins, or at their median,
which is recorded. -/
def PlanResult (p : Primitives n) (s : Settings) (triangles : List (Fin n)) (bounds : Box)
    (before after : BuildStatistics) : Step n → Prop
  | .leaf _ => after = before
  | .split left right => Divides triangles left right ∧
      (after = before.recordMedianSplit ∧ left.length = triangles.length / 2 ∨
        after = before ∧ ∃ best, bestSplit? p s triangles bounds = some best ∧
          left.length = best.leftCount ∧ Between p s triangles best.how left right)

/-- A plan always has a result, at every depth: both sides of a split get triangles, and a place between two
bins has as many on its left as the bins counted, all of them below those on its right. -/
theorem plan_divides {select : Selection n} (lawful : select.Lawful) (valid : s.Valid) (p : Primitives n)
    (triangles : List (Fin n)) (bounds : Box) (depth : Nat) (statistics : BuildStatistics) :
    ∃ step after, plan select p s triangles bounds depth statistics = .ok (step, after) ∧
      PlanResult p s triangles bounds statistics after step := by
  obtain ⟨step, after, made, carriedOut⟩ := plan_decision lawful valid p triangles bounds depth statistics
  refine ⟨step, after, made, ?_⟩
  cases decided : decision p s triangles bounds depth with
  | leaf reason =>
      rw [decided] at carriedOut
      rw [carriedOut.1]
      exact carriedOut.2
  | split best =>
      have found := decision_eq_split decided
      have counted := bestSplit?_counted valid found
      rw [decided] at carriedOut
      obtain ⟨kept, left, right, rfl, cuts, before, after⟩ := carriedOut
      exact ⟨divides_of_cuts cuts counted.positive counted.less,
        .inr ⟨kept, best, found, cuts.left, between_of_cuts found cuts before after⟩⟩
  | median =>
      have several := several_of_median valid decided
      rw [decided] at carriedOut
      obtain ⟨recorded, left, right, rfl, cuts⟩ := carriedOut
      exact ⟨divides_of_cuts cuts (by omega) (by omega), .inl ⟨recorded, cuts.left⟩⟩

def partlyPlaced : Primitives 3 where
  boxes := #v[⟨⟨0, 0, 0⟩, ⟨1, 1, 0⟩⟩, ⟨⟨1, 0, 0⟩, ⟨2, 1, 0⟩⟩, ⟨⟨8, 0, 0⟩, ⟨9, 1, 0⟩⟩]
  centroids := #v[⟨0.5, 0.5, 0⟩, ⟨1.5, 0.5, 0⟩, ⟨8.5, 0 / 0, 0⟩]
  bounds := ⟨⟨0, 0, 0⟩, ⟨9, 1, 0⟩⟩

theorem plan_divides_partlyPlaced :
    ∃ left right, plan .sorted partlyPlaced { leafThreshold := 2 } [2, 0, 1] partlyPlaced.bounds 0 {} =
        .ok (.split left right, {}) ∧
      ∃ place, Between partlyPlaced { leafThreshold := 2 } [2, 0, 1] place left right := by
  have valid : ({ leafThreshold := 2 } : Settings).Valid :=
    Settings.validate_eq_ok.1 (by decide +kernel)
  obtain ⟨step, after, planned, result⟩ := plan_divides Selection.sorted_lawful valid partlyPlaced
    [2, 0, 1] partlyPlaced.bounds 0 {}
  have split : (match plan .sorted partlyPlaced { leafThreshold := 2 } [2, 0, 1] partlyPlaced.bounds 0 {} with
      | .ok (.split _ _, after) => after.medianSplits == 0
      | _ => false) = true := by
    decide +kernel
  rw [planned] at split
  cases step with
  | leaf reason => cases split
  | split left right =>
      rcases result with ⟨_, ⟨rfl, _⟩ | ⟨rfl, best, _, _, between⟩⟩
      · cases split
      · exact ⟨left, right, planned, best.how, between⟩

end BoxTree.Binned

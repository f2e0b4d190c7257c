import BoxTree.Build.Decision
import BoxTree.Proofs.Settings

/-!
# Counts that can be stored

A subtree with some levels below its root has room for as many triangles as its lowest leaves hold.
A decision keeps within that: a node becomes a leaf only when its triangles fit into one, and it is
split only into parts that fit into the levels below.
-/

namespace BoxTree

structure Storable (count levels : Nat) : Prop where
  shallow : levels ≤ maxDepth
  positive : 1 ≤ count
  few : count ≤ maxTriangles
  fits : count ≤ maxLeafTriangles * 2 ^ levels

variable {s : Settings} {count levels : Nat}

theorem storable_root (positive : 1 ≤ count) (few : count ≤ maxTriangles) : Storable count maxDepth where
  shallow := Nat.le_refl _
  positive := positive
  few := few
  fits := few.trans (by decide)

/-- With 32 levels left, no count that can be stored at all is too large. -/
theorem fitsBelow_iff {depth : Nat} (few : count ≤ maxTriangles) :
    fitsBelow count depth = true ↔ count ≤ maxLeafTriangles * 2 ^ (maxDepth - depth) := by
  simp only [fitsBelow, Bool.or_eq_true, decide_eq_true_eq, Nat.shiftLeft_eq, or_iff_right_iff_imp]
  intro high
  calc count ≤ maxTriangles := few
    _ ≤ maxLeafTriangles * 2 ^ 32 := by decide
    _ ≤ maxLeafTriangles * 2 ^ (maxDepth - depth) :=
        Nat.mul_le_mul_left _ (Nat.pow_le_pow_right (by decide) high)

theorem storable_of_fitsBelow (deeper : levels + 1 ≤ maxDepth) (positive : 1 ≤ count)
    (few : count ≤ maxTriangles) (fits : fitsBelow count (maxDepth - (levels + 1) + 1) = true) :
    Storable count levels := by
  refine ⟨by omega, positive, few, ?_⟩
  have left : maxDepth - (maxDepth - (levels + 1) + 1) = levels := by omega
  rwa [fitsBelow_iff few, left] at fits

theorem storable_half (storable : Storable count (levels + 1)) (several : 2 ≤ count) :
    Storable (count / 2) levels ∧ Storable (count - count / 2) levels := by
  obtain ⟨deeper, _, few, fits⟩ := storable
  rw [Nat.pow_succ, ← Nat.mul_assoc] at fits
  constructor <;> constructor <;> omega

theorem forcedLeaf?_bounds (valid : s.Valid) {depth : Nat} (higher : depth < maxDepth) :
    match forcedLeaf? s count depth with
    | some _ => count ≤ maxLeafTriangles
    | none => 2 ≤ count := by
  obtain ⟨least, greatest⟩ := valid.leafThreshold
  unfold forcedLeaf?
  by_cases small : count ≤ s.leafThreshold
  · rw [if_pos small]
    exact small.trans greatest
  · rw [if_neg small, if_neg (not_le.2 higher)]
    simp only
    omega

theorem several_of_forcedLeaf? (valid : s.Valid) {depth : Nat} (free : forcedLeaf? s count depth = none) :
    2 ≤ count := by
  have least := valid.leafThreshold.1
  unfold forcedLeaf? at free
  split at free
  · cases free
  · omega

/-- A node becomes a leaf only if its triangles fit into one, and a split is taken only if both parts fit into
the levels below. -/
theorem choose_cases {β : Type} (cost : CostModel) (count depth : Nat) (best : Option (Split β)) :
    match Decision.choose cost count depth best with
    | .leaf _ => count ≤ maxLeafTriangles
    | .split split => best = some split ∧ fitsBelow split.leftCount (depth + 1) = true ∧
        fitsBelow (count - split.leftCount) (depth + 1) = true
    | .median => True := by
  unfold Decision.choose
  cases kept : best.filter fun split => decide (split.cost < cost.leafCost count) with
  | none =>
      by_cases small : count ≤ maxLeafTriangles
      · simp only [if_pos small]
        exact small
      · simp only [if_neg small]
  | some split =>
      by_cases fits : fitsBelow split.leftCount (depth + 1) && fitsBelow (count - split.leftCount) (depth + 1)
      · simp only [if_pos fits]
        exact ⟨(Option.filter_eq_some_iff.1 kept).1, Bool.and_eq_true_iff.1 fits⟩
      · simp only [if_neg fits]

theorem choose_eq_split {β : Type} {cost : CostModel} {depth : Nat} {best : Option (Split β)}
    {split : Split β} (chosen : Decision.choose cost count depth best = .split split) :
    best = some split := by
  have cases := choose_cases cost count depth best
  rw [chosen] at cases
  exact cases.1

theorem choose_storable {β : Type} (cost : CostModel) {best : Option (Split β)}
    (storable : Storable count (levels + 1)) (several : 2 ≤ count)
    (parts : ∀ split, best = some split → 0 < split.leftCount ∧ split.leftCount < count) :
    match Decision.choose cost count (maxDepth - (levels + 1)) best with
    | .leaf _ => count ≤ maxLeafTriangles
    | .split split => best = some split ∧ Storable split.leftCount levels ∧
        Storable (count - split.leftCount) levels
    | .median => Storable (count / 2) levels ∧ Storable (count - count / 2) levels := by
  have chosen := choose_cases cost count (maxDepth - (levels + 1)) best
  have half := storable_half storable several
  obtain ⟨deeper, _, few, _⟩ := storable
  revert chosen
  cases Decision.choose cost count (maxDepth - (levels + 1)) best with
  | leaf reason => exact id
  | split split =>
      rintro ⟨found, fitsLeft, fitsRight⟩
      obtain ⟨some, less⟩ := parts split found
      exact ⟨found, storable_of_fitsBelow deeper some (by omega) fitsLeft,
        storable_of_fitsBelow deeper (by omega) (by omega) fitsRight⟩
  | median => exact fun _ => half

end BoxTree

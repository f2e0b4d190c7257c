import BoxTree.Proofs.Build.Decision

/-!
# Halving down to the last level

A count fits below a depth exactly if halving it on every level down to the last one leaves no part that is
too large for a leaf. Whatever is chosen for a node with such a count, its parts fit one level deeper.
-/

namespace BoxTree

variable {count levels depth : Nat}

/-- The parts of a count that was halved on some levels, the smaller half first. -/
def halvings : (levels : Nat) → (count : Nat) → List Nat
  | 0, count => [count]
  | levels + 1, count => halvings levels (count / 2) ++ halvings levels (count - count / 2)

theorem halvings_le_iff {bound : Nat} :
    (∀ part ∈ halvings levels count, part ≤ bound) ↔ count ≤ bound * 2 ^ levels := by
  induction levels generalizing count with
  | zero => rw [halvings, List.forall_mem_singleton, Nat.pow_zero, Nat.mul_one]
  | succ levels ih =>
      -- The larger half decides, which is half of the count rounded up.
      rw [halvings, List.forall_mem_append, ih, ih, Nat.pow_succ, ← Nat.mul_assoc]
      omega

theorem fitsBelow_half (few : count ≤ maxTriangles) (higher : depth < maxDepth)
    (fits : fitsBelow count depth = true) :
    fitsBelow (count / 2) (depth + 1) = true ∧ fitsBelow (count - count / 2) (depth + 1) = true := by
  have levels : maxDepth - depth = maxDepth - (depth + 1) + 1 := by omega
  rw [fitsBelow_iff few, levels, Nat.pow_succ, ← Nat.mul_assoc] at fits
  rw [fitsBelow_iff (by omega), fitsBelow_iff (by omega)]
  omega

/-- A decision for a node leads to no part that is too large, neither for a leaf at once nor for the levels
below it. -/
def Decision.Fits {β : Type} (count depth : Nat) : Decision β → Prop
  | leaf _ => count ≤ maxLeafTriangles
  | split best =>
    fitsBelow best.leftCount (depth + 1) = true ∧ fitsBelow (count - best.leftCount) (depth + 1) = true
  | median =>
    fitsBelow (count / 2) (depth + 1) = true ∧ fitsBelow (count - count / 2) (depth + 1) = true

theorem fits_choose {β : Type} (cost : CostModel) (best : Option (Split β)) (few : count ≤ maxTriangles)
    (higher : depth < maxDepth) (fits : fitsBelow count depth = true) :
    (Decision.choose cost count depth best).Fits count depth := by
  have chosen := choose_cases cost count depth best
  have half := fitsBelow_half few higher fits
  revert chosen
  cases Decision.choose cost count depth best with
  | leaf reason => exact id
  | split split => exact And.right
  | median => exact fun _ => half

/-- A count fits below a depth exactly if all parts fit into leaves that are left after halving it on every
level from there on, and every choice keeps to that, also with a split of which a side would be empty. -/
theorem fitsBelow_iff_halvings {β : Type} (cost : CostModel) (best : Option (Split β))
    (few : count ≤ maxTriangles) :
    (fitsBelow count depth = true ↔
      ∀ part ∈ halvings (maxDepth - depth) count, part ≤ maxLeafTriangles) ∧
    (fitsBelow count depth = true → depth < maxDepth →
      (Decision.choose cost count depth best).Fits count depth) :=
  ⟨(fitsBelow_iff few).trans halvings_le_iff.symm, fun fits higher => fits_choose cost best few higher fits⟩

/-- Two levels above the last one, four full leaves of triangles fit, and splitting off a single triangle gives
way to a median split. -/
theorem fitsBelow_iff_halvings_uneven :
    (∀ part ∈ halvings 2 (4 * maxLeafTriangles), part ≤ maxLeafTriangles) ∧
      (Decision.choose (.ofSettings {}) (4 * maxLeafTriangles) (maxDepth - 2)
        (some ⟨1, 1, ()⟩)).Fits (4 * maxLeafTriangles) (maxDepth - 2) := by
  have fits : fitsBelow (4 * maxLeafTriangles) (maxDepth - 2) = true := by decide
  obtain ⟨same, choice⟩ := @fitsBelow_iff_halvings (4 * maxLeafTriangles) (maxDepth - 2) Unit
    (.ofSettings {}) (some ⟨1, 1, ()⟩) (by decide)
  exact ⟨same.1 fits, choice fits (by decide)⟩

/-- Counts beyond the limit of triangles would pass 32 levels above the last one and not one level below. -/
example : fitsBelow (2 ^ 40) (maxDepth - 32) = true ∧ fitsBelow (2 ^ 39) (maxDepth - 31) = false := by
  decide

end BoxTree

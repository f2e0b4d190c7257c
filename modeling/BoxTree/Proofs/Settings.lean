import BoxTree.Settings
import Mathlib.Tactic

/-!
# Settings that are not refused
-/

namespace BoxTree.Settings

structure Valid (s : Settings) : Prop where
  leafThreshold : 1 ≤ s.leafThreshold ∧ s.leafThreshold ≤ maxLeafTriangles
  traversalCost : isCost s.traversalCost = true
  intersectionCost : isCost s.intersectionCost = true
  binCount : minBinCount ≤ s.binCount ∧ s.binCount ≤ maxBinCount
  taskThreshold : 1 ≤ s.taskThreshold

theorem guard_eq_ok {refused : Prop} [Decidable refused] {e : SettingsError}
    {next : Unit → Except SettingsError Unit} :
    (if refused then (throw e >>= next) else next ()) = .ok () ↔ ¬refused ∧ next () = .ok () := by
  by_cases isRefused : refused
  · rw [if_pos isRefused]
    exact ⟨nofun, fun both => absurd isRefused both.1⟩
  · rw [if_neg isRefused]
    exact ⟨fun rest => ⟨isRefused, rest⟩, And.right⟩

theorem validate_eq_ok {s : Settings} : s.validate = .ok () ↔ s.Valid := by
  have last : (if s.taskThreshold = 0 then throw .taskThreshold else pure () :
      Except SettingsError Unit) = .ok () ↔ ¬s.taskThreshold = 0 := by
    by_cases zero : s.taskThreshold = 0
    · rw [if_pos zero]
      exact ⟨nofun, fun positive => absurd zero positive⟩
    · rw [if_neg zero]
      exact ⟨fun _ => zero, fun _ => rfl⟩
  unfold validate
  rw [guard_eq_ok, guard_eq_ok, guard_eq_ok, guard_eq_ok, last]
  simp only [Bool.not_eq_true', Bool.not_eq_false]
  constructor
  · rintro ⟨leaf, traversal, intersection, bins, task⟩
    exact ⟨by omega, traversal, intersection, by omega, by omega⟩
  · rintro ⟨leaf, traversal, intersection, bins, task⟩
    exact ⟨by omega, traversal, intersection, by omega, by omega⟩

end BoxTree.Settings

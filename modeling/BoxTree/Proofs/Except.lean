import Mathlib.Data.List.Forall2

/-!
# Operations that may fail

One operation after another comes to an answer when both do.
-/

namespace BoxTree

variable {ε α β : Type}

theorem ok_bind (a : α) (next : α → Except ε β) : (Except.ok a >>= next) = next a := rfl

theorem bind_eq_ok {result : Except ε α} {next : α → Except ε β} {b : β} :
    (result >>= next) = .ok b ↔ ∃ a, result = .ok a ∧ next a = .ok b := by
  cases result with
  | error e => exact ⟨nofun, nofun⟩
  | ok a =>
      constructor
      · exact fun same => ⟨a, rfl, same⟩
      · rintro ⟨_, same, rest⟩
        cases same
        exact rest

theorem mapError_eq_ok {ε' : Type} {f : ε → ε'} {result : Except ε α} {a : α} :
    result.mapError f = .ok a ↔ result = .ok a := by
  cases result with
  | error e => exact ⟨nofun, nofun⟩
  | ok b => simp only [Except.mapError, Except.ok.injEq]

theorem exists_ok_of_any (result : Except ε α) (test : α → Bool)
    (passes : result.toOption.any test = true) : ∃ a, result = .ok a ∧ test a = true := by
  cases result with
  | error e => cases passes
  | ok a => exact ⟨a, rfl, passes⟩

theorem mapM_ok {operation : α → Except ε β} {xs : List α} (each : ∀ a ∈ xs, ∃ b, operation a = .ok b) :
    ∃ ys, xs.mapM operation = .ok ys ∧ List.Forall₂ (fun a b => operation a = .ok b) xs ys := by
  induction xs with
  | nil => exact ⟨[], rfl, .nil⟩
  | cons a rest ih =>
      rw [List.forall_mem_cons] at each
      obtain ⟨⟨b, first⟩, others⟩ := each
      obtain ⟨ys, mapped, all⟩ := ih others
      refine ⟨b :: ys, ?_, .cons first all⟩
      rw [List.mapM_cons, first, ok_bind, mapped]
      rfl

theorem forall₂_of_mapM {operation : α → Except ε β} {xs : List α} {ys : List β}
    (mapped : xs.mapM operation = .ok ys) : List.Forall₂ (fun a b => operation a = .ok b) xs ys := by
  induction xs generalizing ys with
  | nil =>
      obtain rfl := Except.ok.inj mapped
      exact .nil
  | cons a rest ih =>
      rw [List.mapM_cons, bind_eq_ok] at mapped
      obtain ⟨b, first, mapped⟩ := mapped
      obtain ⟨others, mappedRest, same⟩ := bind_eq_ok.1 mapped
      obtain rfl := Except.ok.inj same
      exact .cons first (ih mappedRest)

theorem mapM_of_map {γ : Type} {f : α → Option γ} {g : γ → β} {operation : α → Except ε β} {xs : List α}
    {ys : List γ} (same : xs.map f = ys.map some) (each : ∀ x y, f x = some y → operation x = .ok (g y)) :
    xs.mapM operation = .ok (ys.map g) := by
  induction xs generalizing ys with
  | nil =>
      obtain rfl : ys = [] := List.map_eq_nil_iff.1 same.symm
      rfl
  | cons x xs ih =>
      obtain ⟨y, ys, rfl, found, rest⟩ := List.map_eq_cons_iff.1 same.symm
      rw [List.mapM_cons, each x y found.symm, ok_bind, ih rest.symm]
      rfl

end BoxTree

import Mathlib.Tactic

/-!
# Marks and counts

What a walk notes about the places it meets: a mark for each place that is met at most once, and a
count for each place that may be met often.
-/

namespace BoxTree

/-! ## Marks -/

def markAll (marks : Array Bool) (places : List Nat) : Array Bool :=
  places.foldl (fun marks place => marks.setIfInBounds place true) marks

def Fresh (marks : Array Bool) (places : List Nat) : Prop :=
  places.Nodup ∧ ∀ place ∈ places, marks[place]? = some false

theorem markAll_append (marks : Array Bool) (xs ys : List Nat) :
    markAll marks (xs ++ ys) = markAll (markAll marks xs) ys := by
  rw [markAll, markAll, markAll, List.foldl_append]

theorem markAll_cons (marks : Array Bool) (place : Nat) (places : List Nat) :
    markAll marks (place :: places) = markAll (marks.setIfInBounds place true) places := rfl

theorem size_markAll (marks : Array Bool) (places : List Nat) :
    (markAll marks places).size = marks.size := by
  induction places generalizing marks with
  | nil => rfl
  | cons place places ih =>
      rw [markAll, List.foldl_cons, ← markAll, ih, Array.size_setIfInBounds]

theorem getElem?_markAll (marks : Array Bool) (places : List Nat) (i : Nat) :
    (markAll marks places)[i]? = marks[i]?.map fun mark => mark || decide (i ∈ places) := by
  induction places generalizing marks with
  | nil => simp [markAll]
  | cons place places ih =>
      rw [markAll, List.foldl_cons, ← markAll, ih, Array.getElem?_setIfInBounds]
      by_cases here : place = i
      · subst here
        by_cases bound : place < marks.size
        · simp [bound]
        · simp [bound]
      · simp [here, Ne.symm here]

theorem fresh_nil (marks : Array Bool) : Fresh marks [] := ⟨List.nodup_nil, nofun⟩

theorem fresh_append {marks : Array Bool} {xs ys : List Nat} :
    Fresh marks (xs ++ ys) ↔ Fresh marks xs ∧ Fresh (markAll marks xs) ys := by
  simp only [Fresh, List.nodup_append, List.mem_append, getElem?_markAll]
  constructor
  · rintro ⟨⟨nodupX, nodupY, apart⟩, fresh⟩
    refine ⟨⟨nodupX, fun i member => fresh i (.inl member)⟩, nodupY, fun i member => ?_⟩
    have other : i ∉ xs := fun inX => apart i inX i member rfl
    simp [fresh i (.inr member), other]
  · rintro ⟨⟨nodupX, freshX⟩, nodupY, freshY⟩
    have apart : ∀ i ∈ ys, i ∉ xs := by
      intro i inY inX
      have fresh := freshY i inY
      simp [freshX i inX, inX] at fresh
    refine ⟨⟨nodupX, nodupY, fun i inX j inY same => apart j inY (same ▸ inX)⟩, ?_⟩
    rintro i (member | member)
    · exact freshX i member
    · have fresh := freshY i member
      simpa [apart i member] using fresh

theorem fresh_singleton {marks : Array Bool} {place : Nat} :
    Fresh marks [place] ↔ marks[place]? = some false := by
  simp [Fresh]

theorem fresh_cons {marks : Array Bool} {place : Nat} {places : List Nat} :
    Fresh marks (place :: places) ↔
      marks[place]? = some false ∧ Fresh (marks.setIfInBounds place true) places := by
  rw [← fresh_singleton]
  exact @fresh_append marks [place] places

theorem markAll_replicate {n : Nat} {places : List Nat} (fresh : Fresh (.replicate n false) places) :
    (∀ i < n, (markAll (.replicate n false) places)[i]? = some true) ↔
      places.Perm (List.range n) := by
  rw [List.perm_ext_iff_of_nodup fresh.1 List.nodup_range]
  have bound : ∀ i ∈ places, i < n := by
    intro i member
    have there := fresh.2 i member
    rw [Array.getElem?_replicate] at there
    exact (Option.ite_none_right_eq_some.1 there).1
  simp only [List.mem_range, getElem?_markAll, Array.getElem?_replicate]
  constructor
  · intro all i
    refine ⟨bound i, fun less => ?_⟩
    simpa [less] using all i less
  · intro all i less
    simp [less, (all i).2 less]

theorem fresh_replicate {n : Nat} {places : List Nat} (all : places.Perm (List.range n)) :
    Fresh (.replicate n false) places := by
  refine ⟨all.nodup_iff.2 List.nodup_range, fun place member => ?_⟩
  have bound := List.mem_range.1 (all.mem_iff.1 member)
  rw [Array.getElem?_replicate, if_pos bound]

/-! ## Counts -/

def countAll (counts : Array Nat) (triangles : List Nat) : Array Nat :=
  triangles.foldl (fun counts triangle => counts.modify triangle (· + 1)) counts

theorem countAll_append (counts : Array Nat) (xs ys : List Nat) :
    countAll counts (xs ++ ys) = countAll (countAll counts xs) ys := by
  rw [countAll, countAll, countAll, List.foldl_append]

theorem size_countAll (counts : Array Nat) (triangles : List Nat) :
    (countAll counts triangles).size = counts.size := by
  induction triangles generalizing counts with
  | nil => rfl
  | cons triangle triangles ih => rw [countAll, List.foldl_cons, ← countAll, ih, Array.size_modify]

theorem getElem?_countAll (counts : Array Nat) (triangles : List Nat) (i : Nat) :
    (countAll counts triangles)[i]? = counts[i]?.map (· + triangles.count i) := by
  induction triangles generalizing counts with
  | nil => simp [countAll]
  | cons triangle triangles ih =>
      rw [countAll, List.foldl_cons, ← countAll, ih, Array.getElem?_modify]
      by_cases here : triangle = i
      · subst here
        simp [Nat.add_comm]
      · simp [here]

theorem countAll_replicate {n : Nat} {triangles : List Nat} (bound : ∀ i ∈ triangles, i < n) :
    (∀ i < n, (countAll (.replicate n 0) triangles)[i]? = some 1) ↔
      triangles.Perm (List.range n) := by
  rw [List.perm_iff_count]
  simp only [getElem?_countAll, Array.getElem?_replicate]
  constructor
  · intro all i
    by_cases less : i < n
    · have once := all i less
      rw [List.count_eq_one_of_mem List.nodup_range (List.mem_range.2 less)]
      simpa [less] using once
    · rw [List.count_eq_zero_of_not_mem (fun member => less (bound i member)),
        List.count_eq_zero_of_not_mem (fun member => less (List.mem_range.1 member))]
  · intro all i less
    rw [all i, List.count_eq_one_of_mem List.nodup_range (List.mem_range.2 less)]
    simp [less]

end BoxTree

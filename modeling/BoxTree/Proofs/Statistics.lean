import Mathlib
import BoxTree.Statistics

/-!
# Counters of parts

What a part adds to the counters is the same at any time, so parts can be counted on their own and in
any order. Samples of two lists, one taken after the other, are the samples of both lists.
-/

namespace BoxTree

namespace Samples

variable (s t u : Samples)

theorem merge_assoc : (s.merge t).merge u = s.merge (t.merge u) := by
  simp only [merge, Nat.add_assoc, Nat.min_assoc, Nat.max_assoc]

theorem merge_comm : s.merge t = t.merge s := by
  simp only [merge, Nat.add_comm, Nat.min_comm, Nat.max_comm]

/-! ## Samples of lists -/

theorem merge_add (value : Nat) : s.merge (t.add value) = (s.merge t).add value := by
  simp only [merge, add, Nat.add_assoc, Nat.min_assoc, Nat.max_assoc]

theorem merge_foldl_add (values : List Nat) :
    s.merge (values.foldl add t) = values.foldl add (s.merge t) := by
  induction values generalizing t with
  | nil => rfl
  | cons value values ih => rw [List.foldl_cons, ih, merge_add, List.foldl_cons]

variable {s t u}

theorem least_foldl_add_le (values : List Nat) : (values.foldl add s).least ≤ s.least := by
  induction values generalizing s with
  | nil => exact Nat.le_refl _
  | cons value values ih => exact Nat.le_trans ih (Nat.min_le_left _ _)

theorem merge_empty (bound : s.least ≤ 0xffffffffffffffff) : s.merge {} = s := by
  simp only [merge, Nat.add_zero, Nat.max_zero, Nat.min_eq_left bound]

theorem ofList_append (xs ys : List Nat) : ofList (xs ++ ys) = (ofList xs).merge (ofList ys) := by
  have bound : (ofList xs).least ≤ 0xffffffffffffffff := least_foldl_add_le xs
  calc ofList (xs ++ ys) = ys.foldl add (ofList xs) := List.foldl_append
    _ = ys.foldl add ((ofList xs).merge {}) := by rw [merge_empty bound]
    _ = (ofList xs).merge (ofList ys) := (merge_foldl_add _ _ ys).symm

theorem ofList_singleton {value : Nat} (bound : value ≤ 0xffffffffffffffff) :
    ofList [value] = single value := by
  simp only [ofList, List.foldl_cons, List.foldl_nil, add, single, Nat.zero_add, Nat.zero_max,
    Nat.min_eq_right bound]

theorem foldl_add_totals (values : List Nat) : (values.foldl add s).count = s.count + values.length ∧
    (values.foldl add s).sum = s.sum + values.sum := by
  induction values generalizing s with
  | nil => exact ⟨rfl, rfl⟩
  | cons value values ih =>
      obtain ⟨count, sum⟩ := @ih (s.add value)
      rw [List.foldl_cons, count, sum, List.length_cons, List.sum_cons]
      simp only [add]
      omega

theorem count_ofList (values : List Nat) : (ofList values).count = values.length :=
  (foldl_add_totals values).1.trans (Nat.zero_add _)

theorem sum_ofList (values : List Nat) : (ofList values).sum = values.sum :=
  (foldl_add_totals values).2.trans (Nat.zero_add _)

theorem le_least_foldl_add {low : Nat} {values : List Nat} (first : low ≤ s.least)
    (each : ∀ value ∈ values, low ≤ value) : low ≤ (values.foldl add s).least := by
  induction values generalizing s with
  | nil => exact first
  | cons value values ih =>
      rw [List.forall_mem_cons] at each
      exact ih (Nat.le_min.2 ⟨first, each.1⟩) each.2

theorem greatest_foldl_add_le {high : Nat} {values : List Nat} (first : s.greatest ≤ high)
    (each : ∀ value ∈ values, value ≤ high) : (values.foldl add s).greatest ≤ high := by
  induction values generalizing s with
  | nil => exact first
  | cons value values ih =>
      rw [List.forall_mem_cons] at each
      exact ih (Nat.max_le.2 ⟨first, each.1⟩) each.2

end Samples

namespace BuildStatistics

def ofLeaf (depth triangles : Nat) (reason : LeafReason) : BuildStatistics :=
  { countReason {} reason with
    leafCount := 1
    paddedReferences := batchesFor triangles * batchWidth
    leafDepth := .single depth
    leafFill := .single triangles }

def addMedianSplits (s : BuildStatistics) (count : Nat) : BuildStatistics :=
  { s with medianSplits := s.medianSplits + count }

def mergeAll (s : BuildStatistics) (parts : List BuildStatistics) : BuildStatistics :=
  parts.foldl merge s

variable (s t u : BuildStatistics)

theorem recordLeaf_eq (depth triangles : Nat) (reason : LeafReason) :
    s.recordLeaf depth triangles reason = s.merge (ofLeaf depth triangles reason) := by
  cases reason <;> rfl

theorem noTasks_ofLeaf (depth triangles : Nat) (reason : LeafReason) :
    (ofLeaf depth triangles reason).parallelTasks = 0 := by
  cases reason <;> rfl

theorem merge_assoc : (s.merge t).merge u = s.merge (t.merge u) := by
  simp only [merge, Samples.merge_assoc, Nat.add_assoc]

theorem merge_right_comm : (s.merge t).merge u = (s.merge u).merge t := by
  simp only [merge, Samples.merge_assoc, Samples.merge_comm t.leafDepth, Samples.merge_comm t.leafFill,
    Nat.add_right_comm]

instance : RightCommutative merge := ⟨merge_right_comm⟩

theorem merge_addMedianSplits (count : Nat) :
    s.merge (t.addMedianSplits count) = (s.addMedianSplits count).merge t := by
  simp only [merge, addMedianSplits, Nat.add_assoc, Nat.add_comm count]

/-! ## Several parts -/

variable {s t u}

theorem mergeAll_perm {xs ys : List BuildStatistics} (perm : xs.Perm ys) : s.mergeAll xs = s.mergeAll ys :=
  perm.foldl_eq s

theorem mergeAll_append (xs ys : List BuildStatistics) :
    s.mergeAll (xs ++ ys) = (s.mergeAll xs).mergeAll ys := List.foldl_append

theorem merge_mergeAll (xs : List BuildStatistics) :
    (s.merge t).mergeAll xs = (s.mergeAll xs).merge t := by
  have perm : (t :: xs).Perm (xs ++ [t]) := (List.perm_append_singleton t xs).symm
  have same : s.mergeAll (t :: xs) = s.mergeAll (xs ++ [t]) := mergeAll_perm perm
  rw [mergeAll_append] at same
  exact same

theorem mergeAll_both {s₁ s₂ : BuildStatistics} {xs ys : List BuildStatistics}
    (left : s₁.mergeAll xs = s.merge t) (right : s₂.mergeAll ys = s₁.merge u) :
    s₂.mergeAll (xs ++ ys) = s.merge (t.merge u) := by
  rw [mergeAll_perm List.perm_append_comm, mergeAll_append, right, merge_mergeAll, left, merge_assoc]

theorem mergeAll_map_merge (parts : List BuildStatistics) :
    s.mergeAll (parts.map u.merge) = (s.mergeAll parts).mergeAll (List.replicate parts.length u) := by
  induction parts generalizing s with
  | nil => rfl
  | cons part parts ih =>
      have first : s.mergeAll ((part :: parts).map u.merge) =
          (s.merge (u.merge part)).mergeAll (parts.map u.merge) := rfl
      rw [first, ih, ← merge_assoc, merge_right_comm, merge_mergeAll]
      rfl

theorem mergeAll_replicate (tasks count : Nat) :
    ({ parallelTasks := tasks } : BuildStatistics).mergeAll (List.replicate count { parallelTasks := 1 }) =
      { parallelTasks := tasks + count } := by
  induction count generalizing tasks with
  | zero => rfl
  | succ count ih =>
      have first : ({ parallelTasks := tasks } : BuildStatistics).merge { parallelTasks := 1 } =
          { parallelTasks := tasks + 1 } := rfl
      rw [List.replicate_succ, mergeAll, List.foldl_cons, first, Nat.add_comm count, ← Nat.add_assoc]
      exact ih (tasks + 1)

theorem mergeAll_tasks {parts : List BuildStatistics}
    (whole : s.mergeAll parts = ({} : BuildStatistics).merge t) :
    s.mergeAll (parts.map (merge { parallelTasks := 1 })) =
      { ({} : BuildStatistics).merge t with parallelTasks := parts.length + t.parallelTasks } := by
  have tasks := mergeAll_replicate 0 parts.length
  rw [mergeAll_map_merge, whole, merge_mergeAll]
  rw [Nat.zero_add] at tasks
  rw [tasks]
  rfl

end BuildStatistics

end BoxTree

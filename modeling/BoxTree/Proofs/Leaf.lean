import BoxTree.Proofs.Subtree

/-!
# Packed leaves

The triangles of a leaf are what is left of its batches when the padding is stripped.
-/

namespace BoxTree
open Arena

theorem batchesFor_bounds {triangles : Nat} (positive : 0 < triangles) :
    0 < batchesFor triangles ∧ batchesFor triangles ≤ triangles := by
  simp only [batchesFor, batchWidth]
  omega

theorem batchesFor_le {triangles : Nat} (few : triangles ≤ maxLeafTriangles) :
    batchesFor triangles ≤ maxLeafBatches := by
  simp only [batchesFor, maxLeafTriangles, maxLeafBatches, batchWidth] at few ⊢
  omega

theorem length_pack (triangles : List Nat) :
    (pack triangles).length = batchesFor triangles.length := by
  fun_induction pack triangles with
  | case1 => decide
  | case2 a => exact (by decide : 1 = batchesFor 1)
  | case3 a b => exact (by decide : 1 = batchesFor 2)
  | case4 a b c => exact (by decide : 1 = batchesFor 3)
  | case5 a b c d rest ih =>
      simp only [List.length_cons, ih, batchesFor, batchWidth]
      omega

theorem entries_pack {triangles : List Nat} (nonempty : triangles ≠ []) :
    ∃ padding < batchWidth, (pack triangles).flatMap Lanes.toList =
      triangles ++ List.replicate padding (triangles.getLast nonempty) := by
  fun_induction pack triangles with
  | case1 => exact absurd rfl nonempty
  | case2 a => exact ⟨3, by decide, rfl⟩
  | case3 a b => exact ⟨2, by decide, rfl⟩
  | case4 a b c => exact ⟨1, by decide, rfl⟩
  | case5 a b c d rest ih =>
      rcases rest with _ | ⟨e, rest⟩
      · exact ⟨0, by decide, rfl⟩
      · obtain ⟨padding, less, same⟩ := ih (List.cons_ne_nil e rest)
        refine ⟨padding, less, ?_⟩
        rw [List.flatMap_cons, same]
        rfl

theorem rdropWhile_append_replicate (entries : List Nat) (last : Nat) (padding : Nat) :
    (entries ++ List.replicate padding last).rdropWhile (· == last) =
      entries.rdropWhile (· == last) := by
  induction padding with
  | zero => rw [List.replicate_zero, List.append_nil]
  | succ padding ih =>
      have repeats : (last == last) = true := beq_self_eq_true last
      rw [List.replicate_succ', ← List.append_assoc, ← ih]
      exact List.rdropWhile_concat_pos _ _ _ repeats

theorem stripped_append_replicate {triangles : List Nat} (nonempty : triangles ≠ [])
    (nodup : triangles.Nodup) (padding : Nat) :
    stripped (triangles ++ List.replicate padding (triangles.getLast nonempty)) = triangles := by
  obtain ⟨before, last, rfl⟩ := (List.eq_nil_or_concat' triangles).resolve_left nonempty
  have other : ∀ entry ∈ before, entry ≠ last := by
    intro entry member same
    exact (List.nodup_append.1 nodup).2.2 entry member last (List.mem_singleton_self last) same
  have kept : before.rdropWhile (· == last) = before := by
    rw [List.rdropWhile_eq_self_iff]
    intro some equal
    exact other _ (List.getLast_mem some) (beq_iff_eq.1 equal)
  rw [List.getLast_append_singleton, List.append_assoc, List.singleton_append, ← List.replicate_succ,
    List.replicate_succ', ← List.append_assoc, stripped_append_singleton,
    rdropWhile_append_replicate, kept]

theorem stripped_pack {triangles : List Nat} (nonempty : triangles ≠ []) (nodup : triangles.Nodup) :
    stripped ((pack triangles).flatMap Lanes.toList) = triangles ∧
      paddingOf ((pack triangles).flatMap Lanes.toList) < batchWidth := by
  obtain ⟨padding, less, same⟩ := entries_pack nonempty
  have rest := stripped_append_replicate nonempty nodup padding
  rw [paddingOf, same, rest, List.length_append, List.length_replicate]
  exact ⟨rfl, by omega⟩

theorem rtakeWhile_eq_replicate (entries : List Nat) (last : Nat) :
    entries.rtakeWhile (· == last) =
      List.replicate (entries.rtakeWhile (· == last)).length last := by
  apply List.eq_replicate_of_mem
  intro entry member
  have equal := List.mem_rtakeWhile_imp member
  exact beq_iff_eq.1 equal

theorem paddingOf_append_singleton (before : List Nat) (last : Nat) :
    paddingOf (before ++ [last]) = (before.rtakeWhile (· == last)).length := by
  have parts : before.rdropWhile (· == last) ++ before.rtakeWhile (· == last) = before :=
    List.rdropWhile_append_rtakeWhile
  have lengths := congrArg List.length parts
  rw [List.length_append] at lengths
  simp only [paddingOf, stripped_append_singleton, List.length_append, List.length_singleton]
  omega

theorem stripped_append_padding (before : List Nat) (last : Nat) :
    stripped (before ++ [last]) ++ List.replicate (paddingOf (before ++ [last])) last =
      before ++ [last] := by
  have parts : before.rdropWhile (· == last) ++ before.rtakeWhile (· == last) = before :=
    List.rdropWhile_append_rtakeWhile
  calc stripped (before ++ [last]) ++ List.replicate (paddingOf (before ++ [last])) last
      = before.rdropWhile (· == last) ++ [last] ++ before.rtakeWhile (· == last) := by
        rw [stripped_append_singleton, paddingOf_append_singleton, ← rtakeWhile_eq_replicate]
    _ = before.rdropWhile (· == last) ++ before.rtakeWhile (· == last) ++ [last] := by
        rw [rtakeWhile_eq_replicate, List.append_assoc, List.append_assoc, ← List.replicate_succ',
          List.singleton_append, ← List.replicate_succ]
    _ = before ++ [last] := by rw [parts]

theorem mem_stripped {entries : List Nat} {entry : Nat} : entry ∈ stripped entries ↔ entry ∈ entries := by
  rcases List.eq_nil_or_concat' entries with rfl | ⟨before, last, rfl⟩
  · rfl
  · rw [stripped_append_singleton]
    simp only [List.mem_append, List.mem_singleton]
    constructor
    · rintro (member | same)
      · exact .inl ((List.rdropWhile_prefix _ before).subset member)
      · exact .inr same
    · rintro (member | same)
      · rw [← @List.rdropWhile_append_rtakeWhile _ (· == last) before, List.mem_append] at member
        rcases member with kept | dropped
        · exact .inl kept
        · have equal := List.mem_rtakeWhile_imp dropped
          exact .inr (beq_iff_eq.1 equal)
      · exact .inr same

end BoxTree

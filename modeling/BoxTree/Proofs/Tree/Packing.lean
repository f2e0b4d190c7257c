import BoxTree.Proofs.Arena
import BoxTree.Proofs.Tree.Validity

/-!
# Packing leaves

The batches of a leaf tell its triangles, and the triangles tell the batches: stripping undoes the padding of
distinct triangles, and packing what was stripped gives the same batches again.
-/

namespace BoxTree

/-! ## Batches and their entries -/

theorem length_entries (batches : List Batch) :
    (batches.flatMap Lanes.toList).length = batchWidth * batches.length := by
  induction batches with
  | nil => rfl
  | cons batch rest ih =>
      rw [List.flatMap_cons, List.length_append, ih, List.length_cons, Nat.mul_add, Nat.add_comm]
      rfl

theorem eq_of_entries {batches batches' : List Batch}
    (same : batches.flatMap Lanes.toList = batches'.flatMap Lanes.toList) : batches = batches' := by
  induction batches generalizing batches' with
  | nil =>
      have lengths := congrArg List.length same
      rw [length_entries, length_entries, List.length_nil, Nat.mul_zero] at lengths
      have none : batches'.length = 0 := by
        unfold batchWidth at lengths
        omega
      exact (List.eq_nil_of_length_eq_zero none).symm
  | cons batch rest ih =>
      cases batches' with
      | nil => cases same
      | cons batch' rest' =>
          obtain ⟨a, b, c, d⟩ := batch
          obtain ⟨a', b', c', d'⟩ := batch'
          obtain ⟨first, others⟩ := List.append_inj same rfl
          obtain ⟨rfl, rfl, rfl, rfl⟩ : a = a' ∧ b = b' ∧ c = c' ∧ d = d' := by
            simpa [Lanes.toList] using first
          rw [ih others]

theorem unpack?_pack {triangles : List Nat} (nonempty : triangles ≠ []) (nodup : triangles.Nodup) :
    ∃ padding < batchWidth, unpack? (Arena.pack triangles) = some (triangles, padding) := by
  obtain ⟨same, less⟩ := stripped_pack nonempty nodup
  have some : Arena.pack triangles ≠ [] := by
    intro none
    have length := length_pack triangles
    have positive := (batchesFor_bounds (List.length_pos_iff.2 nonempty)).1
    rw [none, List.length_nil] at length
    omega
  exact ⟨_, less, by rw [unpack?_eq some, same]⟩

/-- Packing brings back the batches that triangles were read from, unless padding takes up a whole one. -/
theorem pack_of_unpack? {content : List Batch} {triangles : List Nat} {padding : Nat}
    (read : unpack? content = some (triangles, padding)) (few : padding < batchWidth) :
    Arena.pack triangles = content := by
  have nonempty : content ≠ [] := by
    rintro rfl
    cases read
  rw [unpack?_eq nonempty, Option.some.injEq, Prod.mk.injEq] at read
  obtain ⟨rfl, rfl⟩ := read
  have length := length_entries content
  obtain ⟨entries, same⟩ : ∃ entries, content.flatMap Lanes.toList = entries := ⟨_, rfl⟩
  rw [same] at length few ⊢
  have some : entries ≠ [] := by
    rintro rfl
    have positive := List.length_pos_iff.2 nonempty
    rw [List.length_nil, batchWidth] at length
    omega
  obtain ⟨before, last, rfl⟩ := (List.eq_nil_or_concat' entries).resolve_left some
  have kept : stripped (before ++ [last]) ≠ [] := by
    rw [stripped_append_singleton]
    exact List.append_ne_nil_of_right_ne_nil _ (List.cons_ne_nil last [])
  have final : (stripped (before ++ [last])).getLast kept = last := by
    simp only [stripped_append_singleton, List.getLast_append_singleton]
  have parts := stripped_append_padding before last
  obtain ⟨padding, less, packed⟩ := entries_pack kept
  rw [final] at packed
  -- Both paddings fill up the same last batch.
  have equal : padding = paddingOf (before ++ [last]) := by
    have lengths := congrArg List.length packed
    have lengths' := congrArg List.length parts
    rw [length_entries, List.length_append, List.length_replicate] at lengths
    rw [length, List.length_append, List.length_replicate] at lengths'
    unfold batchWidth at lengths lengths' less few
    omega
  apply eq_of_entries
  rw [packed, equal, parts, same]

namespace Arena

def Extends (before after : Arena) : Prop :=
  before.batches.toList <+: after.batches.toList ∧ after.nodes = before.nodes

theorem Extends.refl (a : Arena) : a.Extends a := ⟨List.prefix_refl _, rfl⟩

def leftBy {α : Type} : Except (Interrupted Arena) (α × Arena) → Arena
  | .ok (_, after) => after
  | .error stopped => stopped.left

variable {a : Arena}

theorem extends_push (a : Arena) (batch : Batch) :
    a.Extends { a with batches := a.batches.push batch } :=
  ⟨by simp, rfl⟩

theorem extends_pushBatches (added : List Batch) :
    (∀ stored, a.pushBatches added = .ok stored → a.Extends stored) ∧
      ∀ stopped, a.pushBatches added = .error stopped → a.Extends stopped.left := by
  induction added generalizing a with
  | nil =>
      constructor
      · rintro stored pushed
        cases pushed
        exact .refl a
      · rintro stopped failed
        cases failed
  | cons batch rest ih =>
      rw [pushBatches]
      split
      · obtain ⟨stored, stopped⟩ := @ih { a with batches := a.batches.push batch }
        have first := extends_push a batch
        constructor
        · intro after pushed
          have later := stored after pushed
          exact ⟨first.1.trans later.1, later.2⟩
        · intro after failed
          have later := stopped after failed
          exact ⟨first.1.trans later.1, later.2⟩
      · constructor
        · rintro stored pushed
          cases pushed
        · rintro stopped failed
          cases failed
          exact .refl a

theorem storeLeaf_unfit {triangles : List Nat}
    (unfit : triangles = [] ∨ maxLeafTriangles < triangles.length) (depth : Nat) (reason : LeafReason) :
    a.storeLeaf triangles depth reason = .error ⟨.leafDoesNotFit triangles.length, a⟩ := by
  have count : batchesFor triangles.length = 0 ∨ maxLeafBatches < batchesFor triangles.length := by
    rcases unfit with rfl | many
    · exact .inl (by decide)
    · right
      unfold maxLeafTriangles batchWidth at many
      unfold batchesFor batchWidth
      omega
  simp only [storeLeaf, if_pos count]
  rfl

theorem extends_storeLeaf (triangles : List Nat) (depth : Nat) (reason : LeafReason) :
    a.Extends (leftBy (a.storeLeaf triangles depth reason)) := by
  by_cases unfit : batchesFor triangles.length = 0 ∨ maxLeafBatches < batchesFor triangles.length
  · simp only [storeLeaf, if_pos unfit]
    exact .refl a
  by_cases full : maxIndex < a.batches.size
  · simp only [storeLeaf, if_neg unfit, if_pos full]
    exact .refl a
  obtain ⟨stored, stopped⟩ := @extends_pushBatches a (pack triangles)
  simp only [storeLeaf, if_neg unfit, if_neg full]
  cases pushed : a.pushBatches (pack triangles) with
  | error cause => exact stopped cause pushed
  | ok after =>
      rw [ok_bind]
      cases Link.toLeaf ⟨a.batches.size, batchesFor triangles.length⟩ with
      | ok link => exact stored after pushed
      | error cause => exact stored after pushed

/-- The triangles of a leaf are read back from its link, and a leaf that reads back is stored as it was. -/
theorem storeLeaf_unpack (a : Arena) (depth : Nat) (reason : LeafReason) :
    (∀ triangles : List Nat, triangles.Nodup → 1 ≤ triangles.length →
      triangles.length ≤ maxLeafTriangles →
      a.batches.size + (triangles.length + 3) / 4 ≤ maxIndex + 1 →
      ∃ link after range padding, a.storeLeaf triangles depth reason = .ok (link, after) ∧
        link.target = .leaf range ∧ range = ⟨a.batches.size, (triangles.length + 3) / 4⟩ ∧
        after.batches.size = range.stop ∧ after.batches = a.batches ++ range.content after.batches ∧
        unpack? (range.content after.batches) = some (triangles, padding) ∧ padding ≤ 3) ∧
      (∀ (content : List Batch) (triangles : List Nat) (padding : Nat), 1 ≤ content.length →
        content.length ≤ maxLeafBatches → unpack? content = some (triangles, padding) → padding ≤ 3 →
        a.batches.size + content.length ≤ maxIndex + 1 →
        ∃ link after, a.storeLeaf triangles depth reason = .ok (link, after) ∧
          link.target = .leaf ⟨a.batches.size, content.length⟩ ∧
          after.batches = a.batches ++ content) ∧
      (∀ triangles : List Nat, triangles = [] ∨ maxLeafTriangles < triangles.length →
        a.storeLeaf triangles depth reason = .error ⟨.leafDoesNotFit triangles.length, a⟩) ∧
      ∀ triangles : List Nat, a.Extends (leftBy (a.storeLeaf triangles depth reason)) := by
  refine ⟨?_, ?_, fun triangles unfit => storeLeaf_unfit unfit depth reason,
    fun triangles => extends_storeLeaf triangles depth reason⟩
  · intro triangles nodup positive few room
    have nonempty : triangles ≠ [] := List.length_pos_iff.1 positive
    obtain ⟨link, refers, stored⟩ :=
      @storeLeaf_ok a triangles (batchesFor_bounds positive).1 (batchesFor_le few) room depth reason
    obtain ⟨padding, less, read⟩ := unpack?_pack nonempty nodup
    have count := length_pack triangles
    have size : (a.batches ++ pack triangles).size =
        (⟨a.batches.size, batchesFor triangles.length⟩ : BatchRange).stop := by
      rw [size_appendList, count, BatchRange.stop]
    have content : pack triangles = BatchRange.content (a.batches ++ pack triangles)
        ⟨a.batches.size, batchesFor triangles.length⟩ := by
      apply BatchRange.eq_content size.ge
      rw [BatchRange.toList, ← count]
      exact map_appendList a.batches (pack triangles)
    refine ⟨link, _, _, padding, stored, refers, rfl, size, ?_, ?_, Nat.le_of_lt_succ less⟩
    · exact congrArg (fun added : List Batch => a.batches ++ added) content
    · rw [← read]
      exact congrArg unpack? content.symm
  · intro content triangles padding some few read small room
    have packed := pack_of_unpack? read (Nat.lt_succ_of_le small)
    have count := length_pack triangles
    rw [packed] at count
    obtain ⟨link, refers, stored⟩ := @storeLeaf_ok a triangles (by omega) (by omega) (by omega) depth reason
    rw [← count] at refers
    exact ⟨link, _, stored, refers, by rw [packed]⟩

/-- Five triangles take two batches, of which the second one is read as the fifth triangle alone. -/
theorem storeLeaf_unpack_five :
    (∃ link after range padding,
      ({} : Arena).storeLeaf [7, 8, 9, 10, 11] 2 .cost = .ok (link, after) ∧
        link.target = .leaf range ∧ range = ⟨0, 2⟩ ∧ after.batches.size = range.stop ∧
        after.batches = (#[] : Array Batch) ++ range.content after.batches ∧
        unpack? (range.content after.batches) = some ([7, 8, 9, 10, 11], padding) ∧ padding ≤ 3) ∧
      ({} : Arena).storeLeaf (List.range 61) 0 .cost = .error ⟨.leafDoesNotFit 61, {}⟩ := by
  obtain ⟨back, _⟩ := storeLeaf_unpack {} 2 .cost
  obtain ⟨_, _, unfit, _⟩ := storeLeaf_unpack {} 0 .cost
  exact ⟨back [7, 8, 9, 10, 11] (by decide) (by decide) (by decide) (by decide),
    unfit (List.range 61) (.inr (by decide))⟩

end Arena

end BoxTree

import BoxTree.Link
import Mathlib.Tactic

/-!
# What links refer to

A link made for a node or for batches refers to them, and so does one whose target was moved within
the range of indices.
-/

namespace BoxTree

def Target.shift (nodes batches : Nat) : Target → Target
  | .missing => .missing
  | .inner node => .inner (node + nodes)
  | .leaf range => .leaf ⟨range.first + batches, range.count⟩

def Target.Fits : Target → Prop
  | .missing => True
  | .inner node => node ≤ maxIndex
  | .leaf range => range.first ≤ maxIndex

namespace Link

theorem target_eq (link : Link) :
    link.target =
      if link.raw.toNat = 0xfffffff0 then .missing
      else if link.raw.toNat % 16 = 0 then .inner (link.raw.toNat / 16)
      else .leaf ⟨link.raw.toNat / 16, link.raw.toNat % 16⟩ := by
  have isMissing : link.isMissing = decide (link.raw.toNat = 0xfffffff0) := by
    obtain ⟨raw⟩ := link
    rw [isMissing, missing, beq_eq_decide]
    simp [← UInt32.toNat_inj]
  have index : (link.raw >>> 4).toNat = link.raw.toNat / 16 := by
    simp [UInt32.toNat_shiftRight, Nat.shiftRight_eq_div_pow]
  have count : (link.raw &&& 15).toNat = link.raw.toNat % 16 := by
    simp [UInt32.toNat_and, Nat.and_two_pow_sub_one_eq_mod _ 4]
  have zero : link.raw &&& 15 = 0 ↔ link.raw.toNat % 16 = 0 := by
    rw [← count, ← UInt32.toNat_inj]
    rfl
  simp only [target, isMissing, decide_eq_true_eq, zero, index, count]

theorem target_missing : missing.target = .missing := by decide

theorem isMissing_iff {link : Link} : link.isMissing = true ↔ link.target = .missing := by
  unfold target
  cases link.isMissing with
  | true => simp
  | false =>
      simp only [Bool.false_eq_true, if_false, false_iff]
      split <;> exact nofun

theorem target_eq_missing {link : Link} : link.target = .missing ↔ link = .missing := by
  rw [← isMissing_iff]
  exact beq_iff_eq

theorem inner_bound {link : Link} {node : Nat} (refers : link.target = .inner node) :
    node ≤ maxIndex := by
  have bound : link.raw.toNat < 0x100000000 := link.raw.toNat_lt
  rw [target_eq] at refers
  split_ifs at refers
  obtain rfl : link.raw.toNat / 16 = node := Target.inner.inj refers
  unfold maxIndex
  omega

theorem leaf_bound {link : Link} {range : BatchRange} (refers : link.target = .leaf range) :
    0 < range.count ∧ range.count ≤ maxLeafBatches := by
  rw [target_eq] at refers
  split_ifs at refers
  obtain rfl : (⟨link.raw.toNat / 16, link.raw.toNat % 16⟩ : BatchRange) = range :=
    Target.leaf.inj refers
  simp only [maxLeafBatches]
  omega

theorem toInner_ok {node : Nat} (fits : node ≤ maxIndex) :
    ∃ link, toInner node = .ok link ∧ link.target = .inner node := by
  refine ⟨_, if_pos fits, ?_⟩
  unfold maxIndex at fits
  have raw : (node.toUInt32 <<< 4).toNat = 16 * node := by
    simp only [UInt32.toNat_shiftLeft, Nat.shiftLeft_eq, Nat.toUInt32_eq, UInt32.toNat_ofNat',
      UInt32.reduceToNat, Nat.reduceMod, Nat.reducePow]
    omega
  rw [target_eq, raw, if_neg (by omega), if_pos (by omega)]
  congr 1
  omega

theorem toLeaf_ok {range : BatchRange} (positive : 0 < range.count)
    (few : range.count ≤ maxLeafBatches) (fits : range.first ≤ maxIndex) :
    ∃ link, toLeaf range = .ok link ∧ link.target = .leaf range := by
  obtain ⟨first, count⟩ := range
  simp only at positive few fits
  refine ⟨⟨first.toUInt32 <<< 4 ||| count.toUInt32⟩, ?_, ?_⟩
  · rw [toLeaf, if_neg positive.ne', if_neg (not_lt.2 few), if_neg (not_lt.2 fits)]
  · unfold maxIndex at fits
    unfold maxLeafBatches at few
    have raw : (first.toUInt32 <<< 4 ||| count.toUInt32).toNat = 16 * first + count := by
      have disjoint : first <<< 4 ||| count = first <<< 4 + count :=
        (Nat.shiftLeft_add_eq_or_of_lt (by omega) first).symm
      simp only [UInt32.toNat_or, UInt32.toNat_shiftLeft, Nat.toUInt32_eq, UInt32.toNat_ofNat',
        UInt32.reduceToNat]
      rw [Nat.mod_eq_of_lt (show first < 2 ^ 32 by omega), Nat.mod_eq_of_lt (show count < 2 ^ 32 by omega),
        Nat.mod_eq_of_lt (show first <<< 4 < 2 ^ 32 by rw [Nat.shiftLeft_eq]; omega), disjoint,
        Nat.shiftLeft_eq]
      omega
    rw [target_eq, raw, if_neg (by omega), if_neg (by omega)]
    congr 2 <;> omega

/-! ## Moving targets -/

theorem shift_ok {index offset : Nat} (fits : index + offset ≤ maxIndex) :
    shift index offset = .ok (index + offset) := by
  have small : index + offset < 0x10000000000000000 := by
    unfold maxIndex at fits
    omega
  rw [shift, Nat.mod_eq_of_lt small, if_pos fits]

theorem rebase_ok {link : Link} {nodes batches : Nat}
    (fits : (link.target.shift nodes batches).Fits) :
    ∃ moved, link.rebase nodes batches = .ok moved ∧
      moved.target = link.target.shift nodes batches := by
  cases refers : link.target with
  | missing => exact ⟨link, by simp only [rebase, refers], refers⟩
  | inner node =>
      rw [refers] at fits
      obtain ⟨moved, made, target⟩ := toInner_ok fits
      refine ⟨moved, ?_, target⟩
      simp only [rebase, refers, shift_ok fits]
      exact made
  | leaf range =>
      rw [refers] at fits
      obtain ⟨positive, few⟩ := leaf_bound refers
      obtain ⟨moved, made, target⟩ := @toLeaf_ok ⟨range.first + batches, range.count⟩ positive few fits
      refine ⟨moved, ?_, target⟩
      simp only [rebase, refers, shift_ok fits]
      exact made

end Link

end BoxTree

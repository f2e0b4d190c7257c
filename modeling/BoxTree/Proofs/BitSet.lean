import BoxTree.BitSet
import BoxTree.Lanes
import Mathlib.Data.List.FinRange
import Mathlib.Tactic

/-!
# Walks over bits

Taking the lowest bit away again and again meets every set bit of a word once, from the lowest up. The
mask of four lanes is walked from the first lane to the last.
-/

namespace BoxTree

namespace BitSet

/-! ## The lowest bit -/

theorem eq_of_lowest {x place : Nat} (set : x.testBit place = true)
    (lowest : ∀ i < place, x.testBit i = false) : ∃ above, x = 2 ^ (place + 1) * above + 2 ^ place := by
  have low : x % 2 ^ (place + 1) = 2 ^ place := by
    apply Nat.eq_of_testBit_eq
    intro i
    rw [Nat.testBit_mod_two_pow, Nat.testBit_two_pow]
    rcases lt_trichotomy i place with below | rfl | beyond
    · rw [lowest i below, Bool.and_false, decide_eq_false below.ne']
    · rw [set, decide_eq_true rfl, decide_eq_true (Nat.lt_succ_self i), Bool.and_self]
    · rw [decide_eq_false (by omega), decide_eq_false beyond.ne, Bool.false_and]
  refine ⟨x / 2 ^ (place + 1), ?_⟩
  rw [← low]
  exact (Nat.div_add_mod x _).symm

theorem testBit_and_pred {x place : Nat} (set : x.testBit place = true)
    (lowest : ∀ i < place, x.testBit i = false) (i : Nat) :
    (x &&& (x - 1)).testBit i = (x.testBit i && decide (i ≠ place)) := by
  obtain ⟨above, same⟩ := eq_of_lowest set lowest
  have one : 1 ≤ 2 ^ place := Nat.one_le_two_pow
  have less : 2 ^ place < 2 ^ (place + 1) := Nat.pow_lt_pow_right (by decide) (Nat.lt_succ_self place)
  have pred : x - 1 = 2 ^ (place + 1) * above + (2 ^ place - 1) := by omega
  rw [Nat.testBit_and]
  rcases lt_trichotomy i place with below | rfl | beyond
  · rw [lowest i below, Bool.false_and, Bool.false_and]
  · rw [pred, Nat.testBit_two_pow_mul_add _ (by omega), if_pos (Nat.lt_succ_self i),
      Nat.testBit_two_pow_sub_one, decide_eq_false (lt_irrefl i), Bool.and_false,
      decide_eq_false (not_not.2 rfl), Bool.and_false]
  · have kept : (x - 1).testBit i = x.testBit i := by
      rw [pred, same, Nat.testBit_two_pow_mul_add _ less, Nat.testBit_two_pow_mul_add _ (by omega),
        if_neg (by omega), if_neg (by omega)]
    rw [kept, Bool.and_self, decide_eq_true beyond.ne', Bool.and_true]

theorem toNat_and_pred {bits : UInt32} (nonzero : bits.toNat ≠ 0) :
    (bits &&& (bits - 1)).toNat = bits.toNat &&& (bits.toNat - 1) := by
  have one : (1 : UInt32) ≤ bits := by
    rw [UInt32.le_iff_toNat_le]
    exact Nat.one_le_iff_ne_zero.2 nonzero
  rw [UInt32.toNat_and, UInt32.toNat_sub_of_le _ _ one]
  rfl

/-! ## All bits -/

def ascending (bits : UInt32) : List Nat := (List.range 32).filter bits.toNat.testBit

theorem ascending_of_lowest?_none {bits : UInt32} (none : lowest? bits = none) : ascending bits = [] := by
  rw [lowest?, Option.map_eq_none_iff, List.find?_eq_none] at none
  exact List.filter_eq_nil_iff.2 none

theorem lowest?_eq_some {bits rest : UInt32} {place : Nat} (found : lowest? bits = some (place, rest)) :
    place < 32 ∧ bits.toNat.testBit place = true ∧ (∀ i < place, bits.toNat.testBit i = false) ∧
      ∀ i, rest.toNat.testBit i = (bits.toNat.testBit i && decide (i ≠ place)) := by
  obtain ⟨place, first, same⟩ := Option.map_eq_some_iff.1 found
  obtain ⟨rfl, rfl⟩ := Prod.mk.inj same
  obtain ⟨set, inside, skipped⟩ := List.find?_range_eq_some.1 first
  have lowest : ∀ i < place, bits.toNat.testBit i = false := by simpa using skipped
  have nonzero : bits.toNat ≠ 0 := by
    intro zero
    rw [zero, Nat.zero_testBit] at set
    cases set
  refine ⟨List.mem_range.1 inside, set, lowest, fun i => ?_⟩
  rw [toNat_and_pred nonzero]
  exact testBit_and_pred set lowest i

theorem filter_range_of_lowest {p : Nat → Bool} {m place : Nat} (inside : place < m)
    (set : p place = true) (lowest : ∀ i < place, p i = false) :
    (List.range m).filter p = place :: (List.range m).filter fun i => p i && decide (i ≠ place) := by
  obtain ⟨k, rfl⟩ : ∃ k, m = place + (k + 1) := ⟨m - place - 1, by omega⟩
  have before (q : Nat → Bool) (unset : ∀ i < place, q i = false) : (List.range place).filter q = [] := by
    rw [List.filter_eq_nil_iff]
    intro i member
    rw [unset i (List.mem_range.1 member)]
    exact Bool.false_ne_true
  have after : ((List.range k).map (place + · + 1)).filter (fun i => p i && decide (i ≠ place)) =
      ((List.range k).map (place + · + 1)).filter p := by
    apply List.filter_congr
    intro i member
    obtain ⟨j, _, rfl⟩ := List.mem_map.1 member
    rw [decide_eq_true (by omega), Bool.and_true]
  have whole : List.range (place + (k + 1)) =
      List.range place ++ place :: (List.range k).map (place + · + 1) := by
    rw [List.range_add, List.range_succ_eq_map, List.map_cons, List.map_map]
    rfl
  rw [whole, List.filter_append, List.filter_append, before p lowest,
    before _ (fun i less => by rw [lowest i less, Bool.false_and]), List.nil_append, List.nil_append,
    List.filter_cons_of_pos set, List.filter_cons_of_neg (by simp), after]

theorem ascending_of_lowest?_some {bits rest : UInt32} {place : Nat}
    (found : lowest? bits = some (place, rest)) : ascending bits = place :: ascending rest := by
  obtain ⟨inside, set, lowest, cleared⟩ := lowest?_eq_some found
  rw [ascending, ascending, filter_range_of_lowest inside set lowest]
  congr 2
  exact funext fun i => (cleared i).symm

theorem map_take {rounds : Nat} {bits : UInt32} (enough : (ascending bits).length ≤ rounds) :
    (take rounds bits).map (·.1) = ascending bits := by
  induction rounds generalizing bits with
  | zero => exact (List.length_eq_zero_iff.1 (Nat.le_zero.1 enough)).symm
  | succ rounds ih =>
      rw [take]
      cases lowest : lowest? bits with
      | none => exact (ascending_of_lowest?_none lowest).symm
      | some found =>
          obtain ⟨place, rest⟩ := found
          have step := ascending_of_lowest?_some lowest
          rw [step, List.length_cons] at enough
          rw [List.map_cons, ih (Nat.le_of_succ_le_succ enough), step]

theorem positions_eq (bits : UInt32) : positions bits = ascending bits := by
  refine map_take ((List.length_filter_le _ _).trans ?_)
  rw [List.length_range]

end BitSet

namespace Lanes

theorem testBit_bits (mask : Lanes Bool) (i : Nat) :
    mask.bits.toNat.testBit i = true ↔ ∃ inside : i < 4, mask.get ⟨i, inside⟩ = true := by
  by_cases inside : i < 4
  · have each : ∀ (l0 l1 l2 l3 : Bool) (lane : Fin 4),
        (Lanes.mk l0 l1 l2 l3).bits.toNat.testBit lane = (Lanes.mk l0 l1 l2 l3).get lane := by
      decide +kernel
    rw [each mask.l0 mask.l1 mask.l2 mask.l3 ⟨i, inside⟩]
    exact ⟨fun set => ⟨inside, set⟩, fun ⟨_, set⟩ => set⟩
  · have small : ∀ l0 l1 l2 l3 : Bool, (Lanes.mk l0 l1 l2 l3).bits.toNat < 2 ^ 4 := by
      decide +kernel
    have beyond : mask.bits.toNat < 2 ^ i :=
      (small mask.l0 mask.l1 mask.l2 mask.l3).trans_le (Nat.pow_le_pow_right (by decide) (by omega))
    rw [Nat.testBit_lt_two_pow beyond]
    exact ⟨nofun, fun ⟨less, _⟩ => absurd less inside⟩

theorem positions_bits (mask : Lanes Bool) :
    BitSet.positions mask.bits = ((List.finRange 4).filter mask.get).map Fin.val := by
  have first : (List.range 4).filter mask.bits.toNat.testBit =
      ((List.finRange 4).filter mask.get).map Fin.val := by
    rw [← List.map_coe_finRange_eq_range, List.filter_map]
    congr 1
    apply List.filter_congr
    intro lane _
    rw [Bool.eq_iff_iff, Function.comp, testBit_bits]
    exact ⟨fun ⟨_, set⟩ => set, fun set => ⟨lane.isLt, set⟩⟩
  have others : ((List.range 28).map (4 + ·)).filter mask.bits.toNat.testBit = [] := by
    rw [List.filter_eq_nil_iff]
    intro i member
    obtain ⟨_, _, rfl⟩ := List.mem_map.1 member
    rw [testBit_bits]
    rintro ⟨less, _⟩
    omega
  have whole : List.range 32 = List.range 4 ++ (List.range 28).map (4 + ·) :=
    List.range_add (n := 4) (m := 28)
  rw [BitSet.positions_eq, BitSet.ascending, whole, List.filter_append, first, others,
    List.append_nil]

end Lanes

end BoxTree

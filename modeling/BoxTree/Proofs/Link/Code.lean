import BoxTree.Proofs.Except
import BoxTree.Proofs.Link

/-!
# The code of links

A target within the limits of links has one word, and refers back from it. Moving a link twice is moving it
once by the sum of both offsets, and a link that is moved beyond the range of indices is never answered.
-/

namespace BoxTree

namespace Target

def Packable : Target → Prop
  | missing => True
  | inner node => node ≤ maxIndex
  | leaf range => range.first ≤ maxIndex ∧ 0 < range.count ∧ range.count ≤ maxLeafBatches

/-- The target lies where 64 bits are enough for its index. -/
def Unwrapped : Target → Prop
  | missing => True
  | inner node => node < 0x10000000000000000
  | leaf range => range.first < 0x10000000000000000

def word : Target → Nat
  | missing => 0xfffffff0
  | inner node => 16 * node
  | leaf range => 16 * range.first + range.count

variable {target : Target} {nodes batches : Nat}

theorem shift_shift (target : Target) (nodes batches nodes' batches' : Nat) :
    (target.shift nodes batches).shift nodes' batches' =
      target.shift (nodes + nodes') (batches + batches') := by
  cases target with
  | missing => rfl
  | inner node => rw [shift, shift, shift, Nat.add_assoc]
  | leaf range => simp only [shift, Nat.add_assoc]

theorem shift_eq_missing : target.shift nodes batches = .missing ↔ target = .missing := by
  cases target with
  | missing => exact Iff.rfl
  | inner node => exact ⟨nofun, nofun⟩
  | leaf range => exact ⟨nofun, nofun⟩

theorem Fits.of_shift (fits : (target.shift nodes batches).Fits) : target.Fits := by
  cases target with
  | missing => exact True.intro
  | inner node => exact (Nat.le_add_right _ _).trans fits
  | leaf range => exact (Nat.le_add_right _ _).trans fits

theorem Unwrapped.of_shift (unwrapped : (target.shift nodes batches).Unwrapped) : target.Unwrapped := by
  cases target with
  | missing => exact True.intro
  | inner node => exact (Nat.le_add_right _ _).trans_lt unwrapped
  | leaf range => exact (Nat.le_add_right _ _).trans_lt unwrapped

end Target

namespace Link

def ofTarget : Target → Except Fault Link
  | .missing => .ok missing
  | .inner node => toInner node
  | .leaf range => toLeaf range

variable {link moved : Link} {target other : Target} {nodes batches nodes' batches' : Nat}

/-! ## Words and targets -/

theorem word_target (link : Link) : link.target.word = link.raw.toNat := by
  rw [target_eq]
  split_ifs with none inner <;> simp only [Target.word] <;> omega

theorem eq_of_target (same : link.target = moved.target) : link = moved := by
  obtain ⟨raw⟩ := link
  obtain ⟨raw'⟩ := moved
  congr 1
  rw [← UInt32.toNat_inj]
  exact (word_target ⟨raw⟩).symm.trans ((congrArg Target.word same).trans (word_target ⟨raw'⟩))

theorem ofTarget_ok (packable : target.Packable) :
    ∃ link, ofTarget target = .ok link ∧ link.target = target := by
  cases target with
  | missing => exact ⟨missing, rfl, target_missing⟩
  | inner node => exact toInner_ok packable
  | leaf range => exact toLeaf_ok packable.2.1 packable.2.2 packable.1

theorem packable_of_ofTarget (made : ofTarget target = .ok link) : target.Packable := by
  cases target with
  | missing => exact True.intro
  | inner node =>
      rw [ofTarget, toInner] at made
      split_ifs at made with fits
      exact fits
  | leaf range =>
      rw [ofTarget, toLeaf] at made
      split_ifs at made with none many far
      exact ⟨not_lt.1 far, Nat.pos_of_ne_zero none, not_lt.1 many⟩

theorem ofTarget_eq_ok : ofTarget target = .ok link ↔ target.Packable ∧ link.target = target := by
  constructor
  · intro made
    have packable := packable_of_ofTarget made
    obtain ⟨same, made', refers⟩ := ofTarget_ok packable
    obtain rfl := Except.ok.inj (made.symm.trans made')
    exact ⟨packable, refers⟩
  · rintro ⟨packable, refers⟩
    obtain ⟨same, made, refers'⟩ := ofTarget_ok packable
    rw [made, eq_of_target (refers'.trans refers.symm)]

theorem packable_target (inside : (link.raw >>> 4).toNat ≤ maxIndex ∨ link = missing) :
    link.target.Packable := by
  rcases inside with inside | rfl
  · have index : (link.raw >>> 4).toNat = link.raw.toNat / 16 := by
      simp [UInt32.toNat_shiftRight, Nat.shiftRight_eq_div_pow]
    rw [index] at inside
    cases refers : link.target with
    | missing => exact True.intro
    | inner node => exact inner_bound refers
    | leaf range =>
        have word := word_target link
        have count := leaf_bound refers
        rw [refers, Target.word] at word
        unfold maxLeafBatches at count
        exact ⟨by omega, leaf_bound refers⟩
  · rw [target_missing]
    exact True.intro

/-! ## Moving links -/

theorem shift_error {index offset : Nat} (unwrapped : index + offset < 0x10000000000000000)
    (far : maxIndex < index + offset) : shift index offset = .error .indexOverflow := by
  rw [shift, Nat.mod_eq_of_lt unwrapped]
  exact if_neg (not_le.2 far)

theorem rebase_error (unwrapped : (link.target.shift nodes batches).Unwrapped)
    (far : ¬(link.target.shift nodes batches).Fits) :
    link.rebase nodes batches = .error .indexOverflow := by
  cases refers : link.target with
  | missing =>
      rw [refers] at far
      exact absurd True.intro far
  | inner node =>
      rw [refers] at unwrapped far
      simp only [rebase, refers, shift_error unwrapped (not_le.1 far)]
      rfl
  | leaf range =>
      rw [refers] at unwrapped far
      simp only [rebase, refers, shift_error unwrapped (not_le.1 far)]
      rfl

structure Rebases (link : Link) (nodes batches : Nat) : Prop where
  shifts : ∀ moved, link.rebase nodes batches = .ok moved →
    moved.target = link.target.shift nodes batches
  fault_iff : ∀ cause, link.rebase nodes batches = .error cause ↔
    cause = .indexOverflow ∧ ¬(link.target.shift nodes batches).Fits
  missing_iff : ∀ moved, link.rebase nodes batches = .ok moved → (moved = missing ↔ link = missing)

theorem rebases (unwrapped : (link.target.shift nodes batches).Unwrapped) :
    link.Rebases nodes batches := by
  by_cases fits : (link.target.shift nodes batches).Fits
  · obtain ⟨moved, rebased, refers⟩ := rebase_ok fits
    have same (other : Link) (rebased' : link.rebase nodes batches = .ok other) : other = moved :=
      Except.ok.inj (rebased'.symm.trans rebased)
    constructor
    · intro other rebased'
      rw [same other rebased', refers]
    · intro cause
      exact iff_of_false (fun failed => nomatch rebased.symm.trans failed) fun far => far.2 fits
    · intro other rebased'
      rw [same other rebased', ← target_eq_missing, ← target_eq_missing, refers, Target.shift_eq_missing]
  · have failed := rebase_error unwrapped fits
    constructor
    · intro moved rebased
      cases failed.symm.trans rebased
    · intro cause
      rw [failed, Except.error.injEq, eq_comm]
      exact (and_iff_left fits).symm
    · intro moved rebased
      cases failed.symm.trans rebased

theorem rebase_rebase (link : Link)
    (unwrapped : (link.target.shift (nodes + nodes') (batches + batches')).Unwrapped) :
    (link.rebase nodes batches >>= fun moved => moved.rebase nodes' batches') =
      link.rebase (nodes + nodes') (batches + batches') := by
  rw [← Target.shift_shift] at unwrapped
  by_cases near : (link.target.shift nodes batches).Fits
  · obtain ⟨moved, rebased, refers⟩ := rebase_ok near
    rw [rebased, ok_bind]
    rw [← refers] at unwrapped
    by_cases fits : (moved.target.shift nodes' batches').Fits
    · obtain ⟨again, rebased', refers'⟩ := rebase_ok fits
      rw [refers, Target.shift_shift] at fits refers'
      obtain ⟨whole, rebasedWhole, refersWhole⟩ := rebase_ok fits
      rw [rebased', rebasedWhole, eq_of_target (refers'.trans refersWhole.symm)]
    · rw [rebase_error unwrapped fits]
      rw [refers, Target.shift_shift] at unwrapped fits
      exact (rebase_error unwrapped fits).symm
  · rw [rebase_error unwrapped.of_shift near]
    rw [Target.shift_shift] at unwrapped
    refine (rebase_error unwrapped fun fits => near ?_).symm
    rw [← Target.shift_shift] at fits
    exact fits.of_shift

/-- Links are a code of targets, and moving them is moving the targets. -/
theorem faithful :
    (∀ target : Target, target.Packable → ∃ link, ofTarget target = .ok link ∧ link.target = target) ∧
      (∀ target other link, ofTarget target = .ok link → ofTarget other = .ok link → target = other) ∧
      (∀ link : Link, (link.raw >>> 4).toNat ≤ maxIndex ∨ link = missing →
        ofTarget link.target = .ok link) ∧
      (∀ (link : Link) (nodes batches : Nat), (link.target.shift nodes batches).Unwrapped →
        link.Rebases nodes batches) ∧
      ∀ (link : Link) (nodes batches nodes' batches' : Nat),
        (link.target.shift (nodes + nodes') (batches + batches')).Unwrapped →
          (link.rebase nodes batches >>= fun moved => moved.rebase nodes' batches') =
            link.rebase (nodes + nodes') (batches + batches') := by
  refine ⟨fun _ => ofTarget_ok, ?_, ?_, fun link _ _ => rebases, fun link _ _ _ _ => rebase_rebase link⟩
  · intro target other link made made'
    exact (ofTarget_eq_ok.1 made).2.symm.trans (ofTarget_eq_ok.1 made').2
  · intro link inside
    exact ofTarget_eq_ok.2 ⟨packable_target inside, rfl⟩

/-- The last leaf that has a link: its word is read back, and no move up from there has a link. -/
theorem faithful_last :
    ofTarget (.leaf ⟨maxIndex, maxLeafBatches⟩) = .ok ⟨0xffffffef⟩ ∧
      (⟨0xffffffef⟩ : Link).rebase 0 1 = .error .indexOverflow ∧
      ((⟨15⟩ : Link).rebase 0 maxIndex >>= fun moved => moved.rebase 0 1) = .error .indexOverflow := by
  obtain ⟨_, _, again, moves, twice⟩ := faithful
  have last : (⟨0xffffffef⟩ : Link).target = .leaf ⟨maxIndex, maxLeafBatches⟩ := by decide
  have first : (⟨15⟩ : Link).target = .leaf ⟨0, maxLeafBatches⟩ := by decide
  have near : maxIndex + 1 < 0x10000000000000000 := by decide
  have far : ¬maxIndex + 1 ≤ maxIndex := by decide
  refine ⟨?_, ?_, ?_⟩
  · rw [← last]
    exact again _ (.inl (by decide))
  · exact ((moves ⟨0xffffffef⟩ 0 1 (by rw [last]; exact near)).fault_iff _).2
      ⟨rfl, by rw [last]; exact far⟩
  · have unwrapped : ((⟨15⟩ : Link).target.shift (0 + 0) (maxIndex + 1)).Unwrapped := by
      rw [first]
      exact near
    rw [twice ⟨15⟩ 0 maxIndex 0 1 unwrapped]
    exact ((moves ⟨15⟩ (0 + 0) (maxIndex + 1) unwrapped).fault_iff _).2 ⟨rfl, by rw [first]; exact far⟩

end Link

end BoxTree

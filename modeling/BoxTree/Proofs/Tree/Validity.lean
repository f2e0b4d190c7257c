import BoxTree.Proofs.Leaf
import BoxTree.Proofs.Tree.Marks
import BoxTree.Tree.Validity

/-!
# What the validity check accepts

The check marks nodes and batches and counts triangles while it follows links. It ends on every tree,
whatever its links are, and accepts the trees whose links unfold to a tree over the whole source.
-/

namespace BoxTree

structure Tree.Shaped (t : Tree) (source : TriangleSource) (root : Subtree) : Prop where
  unfolds : Unfolds t.nodes t.batches (.inner 0) root
  nodes : root.nodes.Perm (List.range t.nodes.size)
  batches : root.batches.Perm (List.range t.batches.size)
  /-- The root is at depth zero, so that one level more than the largest depth is in use. -/
  height : root.height ≤ maxDepth + 1
  sound : root.Sound source
  bounds : t.bounds.contains (source.boundsOf root.triangles) = true
  triangles : root.triangles.Perm (List.range source.count)

def Tree.WellFormed (t : Tree) (source : TriangleSource) : Prop :=
  source.count = t.triangleCount ∧ ∃ root, t.Shaped source root

/-! ## Checks that come to their end -/

/-- A check comes to its end, and accepts with the answers of a kind and no others. -/
structure Settles {α : Type} (result : Except ValidityError α) (accepts : α → Prop) : Prop where
  ends : ∀ cause, result ≠ .error (.interrupted cause)
  ok_iff : ∀ answer, result = .ok answer ↔ accepts answer

namespace Settles

variable {α β : Type} {result : Except ValidityError α} {accepts : α → Prop}

theorem ok (a : α) : Settles (.ok a) (· = a) where
  ends := nofun
  ok_iff answer := by rw [Except.ok.injEq, eq_comm]

theorem error {e : ValidityError} (plain : ∀ cause, e ≠ .interrupted cause) :
    Settles (.error e : Except ValidityError α) (fun _ => False) where
  ends cause same := plain cause (Except.error.inj same)
  ok_iff _ := ⟨nofun, False.elim⟩

theorem congr {accepts' : α → Prop} (settles : Settles result accepts)
    (same : ∀ answer, accepts answer ↔ accepts' answer) : Settles result accepts' where
  ends := settles.ends
  ok_iff answer := (settles.ok_iff answer).trans (same answer)

theorem refused {e : ValidityError} (plain : ∀ cause, e ≠ .interrupted cause)
    (none : ∀ answer, ¬accepts answer) : Settles (.error e) accepts :=
  (Settles.error plain).congr fun answer => ⟨False.elim, none answer⟩

theorem bind {next : α → Except ValidityError β} {accepts' : α → β → Prop}
    (settles : Settles result accepts) (rest : ∀ a, accepts a → Settles (next a) (accepts' a)) :
    Settles (result >>= next) (fun b => ∃ a, accepts a ∧ accepts' a b) := by
  cases answer : result with
  | error e =>
      constructor
      · intro cause same
        exact settles.ends cause (answer.trans (congrArg Except.error (Except.error.inj same)))
      · intro b
        refine ⟨nofun, ?_⟩
        rintro ⟨a, accepted, _⟩
        have impossible := (settles.ok_iff a).2 accepted
        rw [answer] at impossible
        cases impossible
  | ok a =>
      have accepted : accepts a := (settles.ok_iff a).1 answer
      have settlesNext := rest a accepted
      constructor
      · exact settlesNext.ends
      · intro b
        refine ⟨fun same => ⟨a, accepted, (settlesNext.ok_iff b).1 same⟩, ?_⟩
        rintro ⟨a', accepted', last⟩
        have same := (settles.ok_iff a').2 accepted'
        rw [answer] at same
        obtain rfl : a = a' := Except.ok.inj same
        exact (settlesNext.ok_iff b).2 last

theorem andThen {p : Prop} {a : α} {next : α → Except ValidityError β} {accepts' : β → Prop}
    (settles : Settles result (fun answer => p ∧ answer = a)) (rest : p → Settles (next a) accepts') :
    Settles (result >>= next) (fun b => p ∧ accepts' b) := by
  have rest' : ∀ answer, p ∧ answer = a → Settles (next answer) accepts' := by
    rintro _ ⟨holds, rfl⟩
    exact rest holds
  apply (settles.bind rest').congr
  intro b
  constructor
  · rintro ⟨_, ⟨holds, rfl⟩, accepted⟩
    exact ⟨holds, accepted⟩
  · rintro ⟨holds, accepted⟩
    exact ⟨a, ⟨holds, rfl⟩, accepted⟩

theorem ite {p : Prop} [Decidable p] {e : ValidityError} (settles : Settles result accepts)
    (plain : ∀ cause, e ≠ .interrupted cause) :
    Settles (if p then result else .error e) (fun answer => p ∧ accepts answer) := by
  by_cases holds : p
  · rw [if_pos holds]
    exact settles.congr fun answer => ⟨fun accepted => ⟨holds, accepted⟩, And.right⟩
  · rw [if_neg holds]
    exact (Settles.error plain).congr fun answer => ⟨False.elim, fun both => holds both.1⟩

end Settles

/-! ## What was met -/

namespace Met

variable {met : Met} {source : TriangleSource} {t : Tree}

def record (met : Met) (s : Subtree) : Met :=
  ⟨markAll met.nodes s.nodes, markAll met.batches s.batches, countAll met.triangles s.triangles⟩

def meetNode (met : Met) (index : Nat) : Met :=
  { met with nodes := met.nodes.setIfInBounds index true }

structure Misses (met : Met) (s : Subtree) : Prop where
  nodes : Fresh met.nodes s.nodes
  batches : Fresh met.batches s.batches
  triangles : ∀ triangle ∈ s.triangles, triangle < met.triangles.size

structure Fits (t : Tree) (source : TriangleSource) (met : Met) : Prop where
  nodes : met.nodes.size = t.nodes.size
  batches : met.batches.size = t.batches.size
  triangles : met.triangles.size = source.count

theorem fits_meetNode (fits : met.Fits t source) (index : Nat) : (met.meetNode index).Fits t source where
  nodes := Array.size_setIfInBounds.trans fits.nodes
  batches := fits.batches
  triangles := fits.triangles

theorem fits_record (fits : met.Fits t source) (s : Subtree) : (met.record s).Fits t source where
  nodes := (size_markAll _ _).trans fits.nodes
  batches := (size_markAll _ _).trans fits.batches
  triangles := (size_countAll _ _).trans fits.triangles

theorem misses_missing (met : Met) : met.Misses .missing := ⟨fresh_nil _, fresh_nil _, nofun⟩

theorem misses_leaf {range : BatchRange} {content : List Batch} :
    met.Misses (.leaf range content) ↔ Fresh met.batches range.toList ∧
      ∀ triangle ∈ stripped (content.flatMap Lanes.toList), triangle < met.triangles.size := by
  rw [← Subtree.triangles_leaf range]
  exact ⟨fun misses => ⟨misses.batches, misses.triangles⟩, fun both => ⟨fresh_nil _, both.1, both.2⟩⟩

theorem record_leaf (met : Met) (range : BatchRange) (content : List Batch) :
    met.record (.leaf range content) =
      { met with
        batches := markAll met.batches range.toList
        triangles := countAll met.triangles (stripped (content.flatMap Lanes.toList)) } := by
  rw [record, Subtree.triangles_leaf]
  rfl

theorem misses_inner {index : Nat} {leftBox rightBox : Box} {left right : Subtree} :
    met.Misses (.inner index leftBox left rightBox right) ↔
      met.nodes[index]? = some false ∧ (met.meetNode index).Misses left ∧
        ((met.meetNode index).record left).Misses right := by
  have size := size_countAll met.triangles left.triangles
  constructor
  · rintro ⟨nodes, batches, triangles⟩
    rw [Subtree.nodes, fresh_cons, fresh_append] at nodes
    rw [Subtree.batches, fresh_append] at batches
    rw [Subtree.triangles_inner, List.forall_mem_append] at triangles
    refine ⟨nodes.1, ⟨nodes.2.1, batches.1, triangles.1⟩, nodes.2.2, batches.2, ?_⟩
    intro triangle member
    exact (triangles.2 triangle member).trans_eq size.symm
  · rintro ⟨fresh, missesLeft, missesRight⟩
    constructor
    · rw [Subtree.nodes, fresh_cons, fresh_append]
      exact ⟨fresh, missesLeft.nodes, missesRight.nodes⟩
    · rw [Subtree.batches, fresh_append]
      exact ⟨missesLeft.batches, missesRight.batches⟩
    · rw [Subtree.triangles_inner, List.forall_mem_append]
      refine ⟨missesLeft.triangles, fun triangle member => ?_⟩
      exact (missesRight.triangles triangle member).trans_eq size

theorem record_inner (met : Met) (index : Nat) (leftBox rightBox : Box) (left right : Subtree) :
    met.record (.inner index leftBox left rightBox right) =
      ((met.meetNode index).record left).record right := by
  simp only [record, Subtree.nodes, Subtree.batches, Subtree.triangles_inner, markAll_cons,
    markAll_append, countAll_append, meetNode]

/-! ## The end of a check -/

structure Complete (met : Met) : Prop where
  nodes : ∀ i < met.nodes.size, met.nodes[i]? = some true
  batches : ∀ i < met.batches.size, met.batches[i]? = some true
  triangles : ∀ i < met.triangles.size, met.triangles[i]? = some 1

theorem fits_nothing (same : source.count = t.triangleCount) : (nothing t).Fits t source where
  nodes := Array.size_replicate
  batches := Array.size_replicate
  triangles := Array.size_replicate.trans same.symm

theorem misses_nothing (same : source.count = t.triangleCount) {s : Subtree}
    (nodes : s.nodes.Perm (List.range t.nodes.size))
    (batches : s.batches.Perm (List.range t.batches.size))
    (triangles : s.triangles.Perm (List.range source.count)) : (nothing t).Misses s where
  nodes := fresh_replicate nodes
  batches := fresh_replicate batches
  triangles triangle member := by
    have bound := List.mem_range.1 (triangles.mem_iff.1 member)
    rwa [nothing, Array.size_replicate, ← same]

theorem complete_record (same : source.count = t.triangleCount) {s : Subtree}
    (misses : (nothing t).Misses s) :
    ((nothing t).record s).Complete ↔ s.nodes.Perm (List.range t.nodes.size) ∧
      s.batches.Perm (List.range t.batches.size) ∧ s.triangles.Perm (List.range source.count) := by
  have bound : ∀ triangle ∈ s.triangles, triangle < t.triangleCount := fun triangle member =>
    (misses.triangles triangle member).trans_eq Array.size_replicate
  rw [same, ← markAll_replicate misses.nodes, ← markAll_replicate misses.batches,
    ← countAll_replicate bound]
  constructor
  · rintro ⟨nodes, batches, triangles⟩
    simp only [record, size_markAll, size_countAll, nothing, Array.size_replicate] at nodes batches triangles
    exact ⟨nodes, batches, triangles⟩
  · rintro ⟨nodes, batches, triangles⟩
    constructor
    all_goals
      simp only [record, size_markAll, size_countAll, nothing, Array.size_replicate]
      assumption

/-! ## Meeting -/

theorem settles_mark {marks : Array Bool} {place : Nat} (bound : place < marks.size)
    (twice : ValidityError) (plain : ∀ cause, twice ≠ .interrupted cause) :
    Settles (mark marks place twice)
      (fun answer => marks[place]? = some false ∧ answer = marks.setIfInBounds place true) := by
  have there : marks[place]? = some marks[place] := Array.getElem?_eq_getElem bound
  unfold mark
  rw [there]
  cases marks[place] with
  | true => exact (Settles.error plain).congr (by simp)
  | false => exact (Settles.ok _).congr (by simp)

theorem settles_addNode (fits : met.Fits t source) {node : Nat} (bound : node < t.nodes.size) :
    Settles (met.addNode node) (fun answer => met.nodes[node]? = some false ∧
      answer = met.meetNode node) := by
  have there : node < met.nodes.size := fits.nodes ▸ bound
  exact (settles_mark there (.nodeReferencedTwice node) nofun).andThen fun _ => .ok _

theorem settles_addBatches (places : List Nat) (bound : ∀ batch ∈ places, batch < met.batches.size) :
    Settles (met.addBatches places) (fun answer => Fresh met.batches places ∧
      answer = { met with batches := markAll met.batches places }) := by
  induction places generalizing met with
  | nil => exact (Settles.ok met).congr fun answer => by simp [fresh_nil, markAll]
  | cons batch rest ih =>
      have there := bound batch List.mem_cons_self
      have boundRest : ∀ place ∈ rest, place < (met.batches.setIfInBounds batch true).size := by
        rw [Array.size_setIfInBounds]
        exact fun place member => bound place (List.mem_cons_of_mem batch member)
      have plain (cause) : ValidityError.batchReferenceCount batch ≠ .interrupted cause := by
        intro same
        cases same
      unfold addBatches
      refine .congr (.andThen (settles_mark there (.batchReferenceCount batch) plain) fun _ =>
        @ih { met with batches := met.batches.setIfInBounds batch true } boundRest) fun answer => ?_
      rw [fresh_cons, and_assoc]
      rfl

theorem settles_addTriangle (leaf triangle : Nat) :
    Settles (met.addTriangle leaf triangle) (fun answer => triangle < met.triangles.size ∧
      answer = { met with triangles := countAll met.triangles [triangle] }) := by
  unfold addTriangle
  by_cases bound : triangle < met.triangles.size
  · have counted : met.triangles.setIfInBounds triangle (met.triangles[triangle] + 1) =
        countAll met.triangles [triangle] := by
      apply Array.ext_getElem?
      intro i
      rw [getElem?_countAll, Array.getElem?_setIfInBounds]
      by_cases here : triangle = i
      · subst here
        simp [bound]
      · simp [here]
    rw [Array.getElem?_eq_getElem bound]
    simp only [counted]
    exact (Settles.ok _).congr (by simp [bound])
  · rw [Array.getElem?_eq_none (not_lt.1 bound)]
    have plain : ∀ cause, ValidityError.triangleOutOfRange leaf triangle ≠ .interrupted cause := nofun
    exact (Settles.error plain).congr fun answer => by simp [bound]

end Met

/-! ## Leaves -/

theorem unpack?_eq {batches : List Batch} (nonempty : batches ≠ []) :
    unpack? batches =
      some (stripped (batches.flatMap Lanes.toList), paddingOf (batches.flatMap Lanes.toList)) := by
  obtain ⟨entries, same⟩ : ∃ entries, batches.flatMap Lanes.toList = entries := ⟨_, rfl⟩
  have some : entries ≠ [] := by
    obtain ⟨batch, rest, rfl⟩ := List.exists_cons_of_ne_nil nonempty
    rw [← same]
    simp [Lanes.toList]
  obtain ⟨before, last, rfl⟩ := (List.eq_nil_or_concat' entries).resolve_left some
  have reversed : (before ++ [last]).reverse = last :: before.reverse := by simp
  have repeats : (before.reverse.takeWhile (· == last)).length = paddingOf (before ++ [last]) := by
    rw [paddingOf_append_singleton, List.rtakeWhile, List.length_reverse]
  have parts := stripped_append_padding before last
  have lengths := congrArg List.length parts
  rw [List.length_append, List.length_replicate] at lengths
  simp only [unpack?, same, reversed, repeats]
  congr 2
  exact (congrArg (List.take _) parts).symm.trans (List.take_left' (by omega))

namespace Tree

variable {t : Tree} {source : TriangleSource} {met : Met}

theorem settles_triangleBox {triangle : Nat} (bound : triangle < source.count) :
    Settles (triangleBox source triangle) (fun answer => True ∧ answer = source.box triangle) := by
  have there : source.triangle? triangle = some (source.triangle ⟨triangle, bound⟩) := dif_pos bound
  rw [triangleBox, there, TriangleSource.box_eq bound]
  exact (Settles.ok _).congr fun answer => (true_and _).to_iff.symm

theorem settles_checkTriangles (leaf : Nat) (triangles : List Nat) {bounds : Box}
    (numeric : bounds.Numeric) (fits : met.triangles.size = source.count) :
    Settles (checkTriangles source leaf triangles bounds met) (fun answer =>
      (∀ triangle ∈ triangles, triangle < met.triangles.size) ∧
        answer = (bounds.union (source.boundsOf triangles),
          { met with triangles := countAll met.triangles triangles })) := by
  induction triangles generalizing bounds met with
  | nil =>
      have unchanged : bounds.union (source.boundsOf []) = bounds := Box.union_empty numeric
      exact (Settles.ok _).congr fun answer => by simp [unchanged, countAll]
  | cons triangle rest ih =>
      unfold checkTriangles
      have size : (countAll met.triangles [triangle]).size = met.triangles.size := size_countAll _ _
      refine .congr (.andThen (Met.settles_addTriangle leaf triangle) fun bound =>
        .andThen (settles_triangleBox (fits ▸ bound)) fun _ =>
          ih (Box.numeric_union numeric _) (size.trans fits)) fun answer => ?_
      simp only [List.forall_mem_cons, size, TriangleSource.union_boundsOf_cons numeric, true_and,
        and_assoc, ← countAll_append, List.singleton_append]

theorem mapM_eq_of_map {α β : Type} {f : α → Option β} {xs : List α} {ys : List β}
    (same : xs.map f = ys.map some) : xs.mapM f = some ys := by
  induction xs generalizing ys with
  | nil =>
      obtain rfl : ys = [] := List.map_eq_nil_iff.1 same.symm
      rfl
  | cons x xs ih =>
      obtain ⟨y, ys, rfl, found, rest⟩ := List.map_eq_cons_iff.1 same.symm
      rw [List.mapM_cons, ← found, ih rest.symm]
      rfl

theorem settles_leafBatches {range : BatchRange} (inside : range.stop ≤ t.batches.size) :
    Settles (t.leafBatches range) (fun answer => True ∧ answer = range.content t.batches) := by
  rw [leafBatches, mapM_eq_of_map (BatchRange.map_content inside)]
  exact (Settles.ok _).congr fun answer => (true_and _).to_iff.symm

theorem settles_checkBatches (leaf : Nat) {batches : List Batch} (nonempty : batches ≠ [])
    (fits : met.triangles.size = source.count) :
    Settles (checkBatches source leaf batches met) (fun answer =>
      (paddingOf (batches.flatMap Lanes.toList) < batchWidth ∧
        ∀ triangle ∈ stripped (batches.flatMap Lanes.toList), triangle < met.triangles.size) ∧
      answer = (source.boundsOf (stripped (batches.flatMap Lanes.toList)),
        { met with
          triangles := countAll met.triangles (stripped (batches.flatMap Lanes.toList)) })) := by
  have settles := settles_checkTriangles leaf (stripped (batches.flatMap Lanes.toList))
    Box.numeric_empty fits
  rw [TriangleSource.empty_union_boundsOf] at settles
  simp only [checkBatches, unpack?_eq nonempty]
  exact .congr (.ite settles nofun) fun answer => and_assoc.symm

theorem settles_checkLeaf {range : BatchRange} (positive : 0 < range.count)
    (inside : range.stop ≤ t.batches.size) (fits : met.Fits t source) :
    Settles (t.checkLeaf source range met) (fun answer =>
      ((Subtree.leaf range (range.content t.batches)).Sound source ∧
        met.Misses (.leaf range (range.content t.batches))) ∧
      answer = (source.boundsOf (Subtree.leaf range (range.content t.batches)).triangles,
        met.record (.leaf range (range.content t.batches)))) := by
  have bound : ∀ batch ∈ range.toList, batch < met.batches.size := by
    intro batch member
    have less := (BatchRange.mem_toList.1 member).2
    have size := fits.batches
    omega
  have nonempty : range.content t.batches ≠ [] := by
    have lengths := congrArg List.length (BatchRange.map_content inside)
    simp only [List.length_map, BatchRange.toList, List.length_range'] at lengths
    exact List.ne_nil_of_length_pos (lengths ▸ positive)
  unfold checkLeaf
  refine .congr (.andThen (Met.settles_addBatches range.toList bound) fun _ =>
    .andThen (settles_leafBatches inside) fun _ =>
      settles_checkBatches range.first nonempty fits.triangles) fun answer => ?_
  rw [Subtree.sound_leaf, Met.misses_leaf, Subtree.triangles_leaf, Met.record_leaf]
  tauto

/-! ## Children and nodes -/

structure Passes (t : Tree) (source : TriangleSource) (levels : Nat) (target : Target) (met : Met)
    (s : Subtree) : Prop where
  unfolds : Unfolds t.nodes t.batches target s
  height : s.height ≤ levels
  sound : s.Sound source
  misses : met.Misses s

def ChecksInner (t : Tree) (source : TriangleSource) (levels : Nat)
    (check : Fin t.nodes.size → Met → Except ValidityError (Box × Met)) : Prop :=
  ∀ index met, met.Fits t source → Settles (check index met) (fun answer =>
    ∃ s, t.Passes source levels (.inner index) met s ∧
      answer = (source.boundsOf s.triangles, met.record s))

def ChecksBelow (t : Tree) (source : TriangleSource) (levels : Nat) :
    Option (Fin t.nodes.size → Met → Except ValidityError (Box × Met)) → Prop
  | none => levels = 0
  | some check => 0 < levels ∧ t.ChecksInner source levels check

def AcceptsChild (t : Tree) (source : TriangleSource) (levels : Nat) (child : Child) (bounds : Box)
    (met : Met) (answer : Box × Met) : Prop :=
  ∃ s, t.Passes source levels child.link.target met s ∧ child.box.Covers source s ∧
    answer = (bounds.union (source.boundsOf s.triangles), met.record s)

section
variable {levels : Nat} {child : Child} {bounds : Box}
  {checkInner? : Option (Fin t.nodes.size → Met → Except ValidityError (Box × Met))}

theorem settles_enlarge (child : Child) (bounds : Box) (node : Nat) (side : Side) (found : Box × Met) :
    Settles (if child.box.contains found.1 then .ok (bounds.union found.1, found.2)
      else .error (.boxTooSmall node side)) (fun answer => child.box.contains found.1 = true ∧
        answer = (bounds.union found.1, found.2)) :=
  .ite (.ok _) nofun

theorem acceptsChild_missing (refers : child.link.target = .missing) (numeric : bounds.Numeric)
    (answer : Box × Met) :
    t.AcceptsChild source levels child bounds met answer ↔
      child.box.isEmpty = true ∧ answer = (bounds, met) := by
  have unchanged : bounds.union (source.boundsOf []) = bounds := Box.union_empty numeric
  unfold AcceptsChild
  rw [refers]
  constructor
  · rintro ⟨s, ⟨unfolds, _, _, _⟩, covers, rfl⟩
    cases unfolds
    rw [Subtree.triangles_missing, unchanged]
    exact ⟨covers, rfl⟩
  · rintro ⟨isEmpty, rfl⟩
    refine ⟨.missing, ⟨.missing, Nat.zero_le _, Subtree.sound_missing, met.misses_missing⟩, isEmpty, ?_⟩
    rw [Subtree.triangles_missing, unchanged]
    rfl

theorem not_acceptsChild_zero (present : child.link.target ≠ .missing) (answer : Box × Met) :
    ¬t.AcceptsChild source 0 child bounds met answer := by
  rintro ⟨s, ⟨unfolds, height, _, _⟩, _⟩
  have positive := unfolds.height_pos present
  omega

theorem settles_innerChild {index : Nat} (refers : child.link.target = .inner index)
    (checks : t.ChecksBelow source levels checkInner?) (depth node : Nat) (side : Side)
    (fits : met.Fits t source) :
    Settles (t.checkChild source depth node checkInner? side child bounds met)
      (t.AcceptsChild source levels child bounds met) := by
  cases checkInner? with
  | none =>
      obtain rfl : levels = 0 := checks
      simp only [checkChild, refers]
      exact .refused nofun (not_acceptsChild_zero (by rw [refers]; exact nofun))
  | some check =>
      simp only [checkChild, refers]
      by_cases bound : index < t.nodes.size
      · rw [dif_pos bound]
        have settles := checks.2 ⟨index, bound⟩ met fits
        refine .congr (.bind settles fun found _ => settles_enlarge child bounds node side found)
          fun answer => ?_
        unfold AcceptsChild
        rw [refers]
        constructor
        · rintro ⟨_, ⟨s, passes, rfl⟩, contains, rfl⟩
          refine ⟨s, passes, ?_, rfl⟩
          cases passes.unfolds
          exact contains
        · rintro ⟨s, passes, covers, rfl⟩
          refine ⟨_, ⟨s, passes, rfl⟩, ?_, rfl⟩
          cases passes.unfolds
          exact covers
      · rw [dif_neg bound]
        refine .refused nofun ?_
        rintro answer ⟨s, ⟨unfolds, _, _, _⟩, _⟩
        rw [refers] at unfolds
        cases unfolds with
        | inner there _ _ => exact bound (Array.getElem?_eq_some_iff.1 there).1

theorem settles_leafChild {range : BatchRange} (refers : child.link.target = .leaf range)
    (checks : t.ChecksBelow source levels checkInner?) (depth node : Nat) (side : Side)
    (fits : met.Fits t source) :
    Settles (t.checkChild source depth node checkInner? side child bounds met)
      (t.AcceptsChild source levels child bounds met) := by
  have positive := (Link.leaf_bound refers).1
  cases checkInner? with
  | none =>
      obtain rfl : levels = 0 := checks
      simp only [checkChild, refers]
      exact .refused nofun (not_acceptsChild_zero (by rw [refers]; exact nofun))
  | some check =>
      simp only [checkChild, refers]
      by_cases inside : range.stop ≤ t.batches.size
      · rw [if_pos inside]
        refine .congr (.andThen (settles_checkLeaf positive inside fits) fun _ =>
          settles_enlarge child bounds node side _) fun answer => ?_
        unfold AcceptsChild
        rw [refers]
        constructor
        · rintro ⟨⟨sound, misses⟩, contains, rfl⟩
          have levelsLeft := checks.1
          exact ⟨_, ⟨.leaf (BatchRange.map_content inside), levelsLeft, sound, misses⟩, contains, rfl⟩
        · rintro ⟨s, ⟨unfolds, _, sound, misses⟩, covers, rfl⟩
          cases unfolds with
          | leaf found =>
              rw [BatchRange.eq_content inside found] at sound misses covers ⊢
              exact ⟨⟨sound, misses⟩, covers, rfl⟩
      · rw [if_neg inside]
        refine .refused nofun ?_
        rintro answer ⟨s, ⟨unfolds, _, _, _⟩, _⟩
        rw [refers] at unfolds
        cases unfolds with
        | leaf found => exact inside (BatchRange.stop_le_of_map positive found)

theorem settles_checkChild (checks : t.ChecksBelow source levels checkInner?) (depth node : Nat)
    (side : Side) (child : Child) (numeric : bounds.Numeric) (fits : met.Fits t source) :
    Settles (t.checkChild source depth node checkInner? side child bounds met)
      (t.AcceptsChild source levels child bounds met) := by
  cases refers : child.link.target with
  | missing =>
      simp only [checkChild, refers]
      exact .congr (.ite (.ok _) nofun) fun answer => (acceptsChild_missing refers numeric answer).symm
  | inner index => exact settles_innerChild refers checks depth node side fits
  | leaf range => exact settles_leafChild refers checks depth node side fits

end

theorem passes_inner_iff {levels index : Nat} {node : Node} {s : Subtree}
    (there : t.nodes[index]? = some node) :
    t.Passes source (levels + 1) (.inner index) met s ↔
      ∃ left right, s = .inner index node.left.box left node.right.box right ∧
        met.nodes[index]? = some false ∧
        (t.Passes source levels node.left.link.target (met.meetNode index) left ∧
          node.left.box.Covers source left) ∧
        t.Passes source levels node.right.link.target ((met.meetNode index).record left) right ∧
          node.right.box.Covers source right := by
  constructor
  · rintro ⟨unfolds, height, sound, misses⟩
    cases unfolds with
    | @inner _ node' left right found unfoldsLeft unfoldsRight =>
        obtain rfl : node' = node := Option.some.inj (found.symm.trans there)
        rw [Subtree.sound_inner] at sound
        rw [Met.misses_inner] at misses
        rw [Subtree.height, Nat.add_le_add_iff_right, max_le_iff] at height
        exact ⟨left, right, rfl, misses.1, ⟨⟨unfoldsLeft, height.1, sound.1.2, misses.2.1⟩, sound.1.1⟩,
          ⟨unfoldsRight, height.2, sound.2.2, misses.2.2⟩, sound.2.1⟩
  · rintro ⟨left, right, rfl, fresh, ⟨passesLeft, coversLeft⟩, passesRight, coversRight⟩
    constructor
    · exact .inner there passesLeft.unfolds passesRight.unfolds
    · rw [Subtree.height, Nat.add_le_add_iff_right, max_le_iff]
      exact ⟨passesLeft.height, passesRight.height⟩
    · rw [Subtree.sound_inner]
      exact ⟨⟨coversLeft, passesLeft.sound⟩, coversRight, passesRight.sound⟩
    · rw [Met.misses_inner]
      exact ⟨fresh, passesLeft.misses, passesRight.misses⟩

theorem settles_checkChildren {levels : Nat}
    {checkInner? : Option (Fin t.nodes.size → Met → Except ValidityError (Box × Met))}
    (checks : t.ChecksBelow source levels checkInner?) (depth : Nat) {index : Nat} {node : Node}
    (there : t.nodes[index]? = some node) (fits : met.Fits t source) :
    Settles (do
        let met ← met.addNode index
        let found ← t.checkChild source depth index checkInner? .left node.left .empty met
        t.checkChild source depth index checkInner? .right node.right found.1 found.2)
      (fun answer => ∃ s, t.Passes source (levels + 1) (.inner index) met s ∧
        answer = (source.boundsOf s.triangles, met.record s)) := by
  have bound : index < t.nodes.size := (Array.getElem?_eq_some_iff.1 there).1
  have fitsLeft := Met.fits_meetNode fits index
  have left := settles_checkChild checks depth index .left node.left Box.numeric_empty fitsLeft
  have right (found : Box × Met)
      (accepted : t.AcceptsChild source levels node.left .empty (met.meetNode index) found) :
      Settles (t.checkChild source depth index checkInner? .right node.right found.1 found.2)
        (t.AcceptsChild source levels node.right found.1 found.2) := by
    obtain ⟨s, _, _, rfl⟩ := accepted
    rw [TriangleSource.empty_union_boundsOf]
    exact settles_checkChild checks depth index .right node.right (source.numeric_boundsOf s.triangles)
      (Met.fits_record fitsLeft s)
  refine .congr (.andThen (Met.settles_addNode fits bound) fun _ => .bind left right) fun answer => ?_
  constructor
  · rintro ⟨fresh, _, ⟨s, passesLeft, coversLeft, rfl⟩, s', passesRight, coversRight, rfl⟩
    have passes := (passes_inner_iff there).2
      ⟨s, s', rfl, fresh, ⟨passesLeft, coversLeft⟩, passesRight, coversRight⟩
    refine ⟨_, passes, ?_⟩
    rw [Subtree.triangles_inner, TriangleSource.empty_union_boundsOf, TriangleSource.boundsOf_append,
      Met.record_inner]
  · rintro ⟨_, passes, rfl⟩
    obtain ⟨s, s', rfl, fresh, ⟨passesLeft, coversLeft⟩, passesRight, coversRight⟩ :=
      (passes_inner_iff there).1 passes
    refine ⟨fresh, _, ⟨s, passesLeft, coversLeft, rfl⟩, s', passesRight, coversRight, ?_⟩
    rw [Subtree.triangles_inner, TriangleSource.empty_union_boundsOf, TriangleSource.boundsOf_append,
      Met.record_inner]

theorem checksInner_checkNode (levels : Nat) :
    t.ChecksInner source (levels + 1) (t.checkNode source levels) := by
  induction levels with
  | zero =>
      intro index met fits
      have below : t.ChecksBelow source 0 none := rfl
      unfold checkNode
      exact settles_checkChildren below _ (Array.getElem?_eq_getElem index.isLt) fits
  | succ levels ih =>
      intro index met fits
      have below : t.ChecksBelow source (levels + 1) (some (t.checkNode source levels)) :=
        ⟨levels.succ_pos, ih⟩
      unfold checkNode
      exact settles_checkChildren below _ (Array.getElem?_eq_getElem index.isLt) fits

/-! ## The whole check -/

theorem findIdx?_unmarked (marks : Array Bool) :
    marks.findIdx? (· == false) = none ↔ ∀ i < marks.size, marks[i]? = some true := by
  rw [Array.findIdx?_eq_none_iff, Array.forall_mem_iff_forall_getElem]
  refine forall₂_congr fun i bound => ?_
  rw [Array.getElem?_eq_getElem bound, Option.some_inj]
  cases marks[i] <;> decide

theorem find?_miscounted (counts : Array Nat) :
    counts.toList.zipIdx.find? (·.1 != 1) = none ↔ ∀ i < counts.size, counts[i]? = some 1 := by
  rw [List.find?_eq_none]
  constructor
  · intro once i bound
    have member : (counts[i], i) ∈ counts.toList.zipIdx :=
      List.mk_mem_zipIdx_iff_getElem?.2 (by simp [bound])
    rw [Array.getElem?_eq_getElem bound]
    simpa using once _ member
  · rintro once ⟨count, i⟩ member
    have found := List.mk_mem_zipIdx_iff_getElem?.1 member
    rw [Array.getElem?_toList] at found
    have bound := (Array.getElem?_eq_some_iff.1 found).1
    have one := found.symm.trans (once i bound)
    simpa using one

theorem settles_checkMet (met : Met) : Settles (checkMet met) (fun _ => met.Complete) := by
  have complete : met.Complete ↔ met.nodes.findIdx? (· == false) = none ∧
      met.batches.findIdx? (· == false) = none ∧
        met.triangles.toList.zipIdx.find? (·.1 != 1) = none := by
    rw [findIdx?_unmarked, findIdx?_unmarked, find?_miscounted]
    exact ⟨fun h => ⟨h.nodes, h.batches, h.triangles⟩, fun h => ⟨h.1, h.2.1, h.2.2⟩⟩
  rw [complete]
  unfold checkMet
  split
  · next found => exact .congr (.error nofun) fun _ => by simp only [found, reduceCtorEq, false_and]
  · next found =>
      exact .congr (.error nofun) fun _ => by simp only [found, reduceCtorEq, false_and, and_false]
  · next found => exact .congr (.error nofun) fun _ => by simp only [found, reduceCtorEq, and_false]
  · next nodes batches triangles =>
      exact .congr (.ok ()) fun _ => by simp only [nodes, batches, triangles, and_self]

theorem wellFormed_iff (same : source.count = t.triangleCount) :
    t.WellFormed source ↔ ∃ root, t.Passes source (maxDepth + 1) (.inner 0) (.nothing t) root ∧
      t.bounds.contains (source.boundsOf root.triangles) = true ∧
      ((Met.nothing t).record root).Complete := by
  constructor
  · rintro ⟨_, root, shaped⟩
    have misses := Met.misses_nothing same shaped.nodes shaped.batches shaped.triangles
    exact ⟨root, ⟨shaped.unfolds, shaped.height, shaped.sound, misses⟩, shaped.bounds,
      (Met.complete_record same misses).2 ⟨shaped.nodes, shaped.batches, shaped.triangles⟩⟩
  · rintro ⟨root, passes, contains, complete⟩
    obtain ⟨nodes, batches, triangles⟩ := (Met.complete_record same passes.misses).1 complete
    exact ⟨same, root, passes.unfolds, nodes, batches, passes.height, passes.sound, contains, triangles⟩

theorem settles_validate (t : Tree) (source : TriangleSource) :
    Settles (t.validate source) (fun _ => t.WellFormed source) := by
  unfold validate
  by_cases same : source.count = t.triangleCount
  · rw [if_pos same]
    by_cases rooted : 0 < t.nodes.size
    · rw [dif_pos rooted]
      have settles := checksInner_checkNode maxDepth ⟨0, rooted⟩ _ (Met.fits_nothing same)
      have ending (a : Box × Met) : Settles (if t.bounds.contains a.1 then checkMet a.2
          else .error .rootBounds) (fun _ => t.bounds.contains a.1 = true ∧ a.2.Complete) :=
        .ite (settles_checkMet a.2) nofun
      refine .congr (.bind settles fun a _ => ending a) fun _ => ?_
      rw [wellFormed_iff same]
      constructor
      · rintro ⟨_, ⟨root, passes, rfl⟩, contains, complete⟩
        exact ⟨root, passes, contains, complete⟩
      · rintro ⟨root, passes, contains, complete⟩
        exact ⟨_, ⟨root, passes, rfl⟩, contains, complete⟩
    · rw [dif_neg rooted]
      refine .refused nofun ?_
      rintro _ ⟨_, root, shaped⟩
      cases shaped.unfolds with
      | inner there _ _ => exact rooted (Array.getElem?_eq_some_iff.1 there).1
  · rw [if_neg same]
    exact .refused nofun fun _ wellFormed => same wellFormed.1

/-- The check comes to its end on every tree and every source, and accepts a tree just when it is
well-formed. -/
theorem validate_iff_wellFormed (t : Tree) (source : TriangleSource) :
    (∀ cause, t.validate source ≠ .error (.interrupted cause)) ∧
      (t.validate source = .ok () ↔ t.WellFormed source) :=
  ⟨(settles_validate t source).ends, (settles_validate t source).ok_iff ()⟩

end Tree

end BoxTree

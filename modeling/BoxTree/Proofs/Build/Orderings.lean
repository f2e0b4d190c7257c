import BoxTree.Build.Orderings
import Mathlib.Tactic

/-!
# Partitions of orderings

All orderings have the same triangles in a span. A partition moves the same ones to the front of the
span in each of them, and touches nothing outside of it.
-/

namespace BoxTree

namespace CentroidKey

variable {n : Nat}

theorem le_trans (a b c : CentroidKey n) (first : a.le b = true) (second : b.le c = true) :
    a.le c = true := by
  simp only [le, Bool.or_eq_true, decide_eq_true_eq, Bool.and_eq_true, beq_iff_eq, Fin.le_def]
    at first second ⊢
  omega

theorem le_total (a b : CentroidKey n) : (a.le b || b.le a) = true := by
  simp only [le, Bool.or_eq_true, decide_eq_true_eq, Bool.and_eq_true, beq_iff_eq, Fin.le_def]
  omega

end CentroidKey

namespace Orderings

variable {n : Nat} {o o' o'' : Orderings n} {span other : Span} {axis : Axis} {split : Nat}

/-! ## Slices -/

theorem getElem?_slice (o : Orderings n) (axis : Axis) (span : Span) (i : Nat) :
    (o.slice axis span)[i]? =
      if i < min span.stop (o.along.get axis).size - span.start then
        (o.along.get axis)[span.start + i]?
      else none := by
  rw [slice, Array.getElem?_toList, Array.getElem?_extract]

theorem slice_withScratch (o : Orderings n) (axis : Axis) (span : Span) (scratch : Array (Fin n)) :
    ({ o with scratch } : Orderings n).slice axis span = o.slice axis span := rfl

theorem length_slice (o : Orderings n) (axis : Axis) {span : Span}
    (inside : span.stop ≤ (o.along.get axis).size) : (o.slice axis span).length = span.length := by
  rw [slice, Array.length_toList, Array.size_extract_of_le inside, Span.length]

structure Agree (o : Orderings n) (span : Span) : Prop where
  ordered : span.start ≤ span.stop
  inside : ∀ axis, span.stop ≤ (o.along.get axis).size
  same : ∀ axis, (o.slice axis span).Perm (o.slice .x span)
  nodup : (o.slice .x span).Nodup

structure Within (o o' : Orderings n) (span : Span) : Prop where
  size : ∀ axis, (o'.along.get axis).size = (o.along.get axis).size
  outside : ∀ axis i, i < span.start ∨ span.stop ≤ i →
    (o'.along.get axis)[i]? = (o.along.get axis)[i]?

namespace Within

theorem refl (o : Orderings n) (span : Span) : o.Within o span := ⟨fun _ => rfl, fun _ _ _ => rfl⟩

theorem trans (first : o.Within o' span) (second : o'.Within o'' span) : o.Within o'' span where
  size axis := (second.size axis).trans (first.size axis)
  outside axis i far := (second.outside axis i far).trans (first.outside axis i far)

theorem mono (within : o.Within o' other) (starts : span.start ≤ other.start)
    (stops : other.stop ≤ span.stop) : o.Within o' span where
  size := within.size
  outside axis i far := within.outside axis i (by omega)

theorem withScratch (within : o.Within o' span) (scratch : Array (Fin n)) :
    o.Within { o' with scratch } span :=
  ⟨within.size, within.outside⟩

theorem slice (within : o.Within o' span) (apart : other.stop ≤ span.start ∨ span.stop ≤ other.start)
    (axis : Axis) : o'.slice axis other = o.slice axis other := by
  apply List.ext_getElem?
  intro i
  rw [getElem?_slice, getElem?_slice, within.size axis]
  split
  · next less => exact within.outside axis _ (by omega)
  · rfl

theorem agree (within : o.Within o' span) (agree : o.Agree other)
    (apart : other.stop ≤ span.start ∨ span.stop ≤ other.start) : o'.Agree other where
  ordered := agree.ordered
  inside axis := (agree.inside axis).trans_eq (within.size axis).symm
  same axis := by
    rw [within.slice apart, within.slice apart]
    exact agree.same axis
  nodup := by
    rw [within.slice apart]
    exact agree.nodup

end Within

theorem slice_eq (o : Orderings n) (axis : Axis) (span : Span) :
    o.slice axis span = ((o.along.get axis).toList.drop span.start).take span.length := by
  rw [slice, Array.toList_extract, List.extract_eq_take_drop, Span.length]

theorem slice_cut_left (o : Orderings n) (axis : Axis) (inside : split ≤ span.length) :
    o.slice axis (span.cut split).1 = (o.slice axis span).take split := by
  rw [slice_eq, slice_eq, List.take_take, Nat.min_eq_left inside, Span.length, Span.cut,
    Nat.add_sub_cancel_left]

theorem slice_cut_right (o : Orderings n) (axis : Axis) :
    o.slice axis (span.cut split).2 = (o.slice axis span).drop split := by
  rw [slice_eq, slice_eq, List.drop_take, List.drop_drop, Span.length, Span.length, Span.cut,
    Nat.sub_add_eq]

/-! ## Writing -/

theorem get_write_of_ne {triangles : List (Fin n)} {axis' : Axis} (different : axis' ≠ axis) :
    (o.write axis span triangles).along.get axis' = o.along.get axis' :=
  Vec3.get_set_of_ne _ different _

theorem toList_written (old : Array (Fin n)) (start stop : Nat) (triangles : List (Fin n)) :
    (old.extract 0 start ++ triangles.toArray ++ old.extract stop old.size).toList =
      old.toList.take start ++ (triangles ++ old.toList.drop stop) := by
  simp only [Array.toList_append, Array.toList_extract, List.extract_eq_take_drop, List.drop_zero,
    Nat.sub_zero, List.append_assoc]
  congr 2
  rw [← Array.length_toList, ← List.length_drop, List.take_length]

theorem toList_write (o : Orderings n) (axis : Axis) (span : Span) (triangles : List (Fin n)) :
    ((o.write axis span triangles).along.get axis).toList =
      (o.along.get axis).toList.take span.start ++
        (triangles ++ (o.along.get axis).toList.drop span.stop) := by
  simp only [write, Vec3.get_set_self]
  exact toList_written _ _ _ _

variable {triangles : List (Fin n)}

theorem slice_write (ordered : span.start ≤ span.stop) (inside : span.stop ≤ (o.along.get axis).size)
    (fits : triangles.length = span.length) :
    (o.write axis span triangles).slice axis span = triangles := by
  have before : ((o.along.get axis).toList.take span.start).length = span.start := by
    rw [List.length_take, Array.length_toList]
    omega
  rw [slice_eq, toList_write, ← fits, List.drop_left' before, List.take_left' rfl]

theorem within_write (ordered : span.start ≤ span.stop)
    (inside : span.stop ≤ (o.along.get axis).size) (fits : triangles.length = span.length) :
    o.Within (o.write axis span triangles) span := by
  unfold Span.length at fits
  have before : ((o.along.get axis).toList.take span.start).length = span.start := by
    rw [List.length_take, Array.length_toList]
    omega
  constructor
  · intro axis'
    by_cases same : axis' = axis
    · rw [same, ← Array.length_toList, toList_write]
      simp only [List.length_append, List.length_take, List.length_drop, Array.length_toList]
      omega
    · rw [get_write_of_ne same]
  · intro axis' i far
    by_cases same : axis' = axis
    · rw [same, ← Array.getElem?_toList, toList_write, ← Array.getElem?_toList]
      rcases far with left | right
      · rw [List.getElem?_append_left (by omega), List.getElem?_take_of_lt left]
      · rw [List.getElem?_append_right (by omega), List.getElem?_append_right (by omega),
          List.getElem?_drop]
        congr 1
        omega
    · rw [get_write_of_ne same]

/-! ## Sides -/

structure Marked (o : Orderings n) (lefts rights : List (Fin n)) : Prop where
  left : ∀ i ∈ lefts, o.inLeft.get i = true
  right : ∀ i ∈ rights, o.inLeft.get i = false

theorem get_setSide (o : Orderings n) (left : Bool) (triangles : List (Fin n)) (i : Fin n) :
    (o.setSide left triangles).inLeft.get i = if i ∈ triangles then left else o.inLeft.get i := by
  unfold setSide
  simp only
  generalize o.inLeft = sides
  induction triangles generalizing sides with
  | nil => rfl
  | cons j rest ih =>
      rw [List.foldl_cons, ih]
      by_cases later : i ∈ rest
      · rw [if_pos later, if_pos (List.mem_cons_of_mem j later)]
      · rw [if_neg later]
        by_cases same : i = j
        · subst same
          rw [if_pos List.mem_cons_self]
          exact Vector.getElem_set_self i.isLt
        · rw [if_neg (by simp only [List.mem_cons, same, later, or_self, not_false_eq_true])]
          exact Vector.getElem_set_ne j.isLt i.isLt fun equal => same (Fin.ext equal.symm)

theorem marked_mark (nodup : (o.slice axis span).Nodup) :
    (o.mark axis span split).Marked ((o.slice axis span).take split)
      ((o.slice axis span).drop split) := by
  unfold mark
  constructor
  · intro i member
    rw [get_setSide, if_neg, get_setSide, if_pos member]
    exact fun other => (List.disjoint_take_drop nodup (Nat.le_refl split)) member other
  · intro i member
    rw [get_setSide, if_pos member]

/-! ## Separating in place -/

variable {lefts rights : List (Fin n)}

/-- What is left of an ordering after some triangles from a place on were looked at. No more of them have
moved to the front than were looked at, so the next one has not been overwritten. -/
structure Sifted (o : Orderings n) (axis : Axis) (start : Nat) (seen : List (Fin n))
    (s : Separating n) : Prop where
  ordering : s.ordering.toList = (o.along.get axis).toList.take start ++
    (seen.filter (o.inLeft.get ·) ++
      (o.along.get axis).toList.drop (start + (seen.filter (o.inLeft.get ·)).length))
  left : s.left = start + (seen.filter (o.inLeft.get ·)).length
  aside : s.aside.toList = seen.filter (not ∘ (o.inLeft.get ·))

theorem Sifted.look {s : Separating n} {start : Nat} {seen : List (Fin n)} {i : Fin n}
    (sifted : o.Sifted axis start seen s)
    (next : (o.along.get axis).toList[start + seen.length]? = some i) :
    o.Sifted axis start (seen ++ [i]) (s.look o.inLeft (start + seen.length)) := by
  obtain ⟨ordering, left, aside⟩ := sifted
  have short : (seen.filter (o.inLeft.get ·)).length ≤ seen.length := List.length_filter_le _ _
  have inside := (List.getElem?_eq_some_iff.1 next).1
  have before : ((o.along.get axis).toList.take start).length = start := by
    rw [List.length_take]
    omega
  have read : s.ordering[start + seen.length]? = some i := by
    rw [← Array.getElem?_toList, ordering, List.getElem?_append_right (by omega), before,
      List.getElem?_append_right (by omega), List.getElem?_drop, ← next]
    congr 1
    omega
  rw [Separating.look, read]
  by_cases side : o.inLeft.get i = true
  · simp only [side, if_true]
    constructor
    · rw [Array.toList_setIfInBounds, ordering, left, List.filter_append, List.filter_cons_of_pos side,
        List.filter_nil, List.length_append, List.set_append_right _ _ (by omega), before,
        List.set_append_right _ _ (by omega), List.append_assoc, List.drop_eq_getElem_cons (by omega)]
      simp only [Nat.add_sub_cancel_left, Nat.sub_self, List.set_cons_zero, List.length_singleton,
        List.singleton_append, Nat.add_assoc]
    · rw [left, List.filter_append, List.filter_cons_of_pos side, List.length_append]
      rfl
    · rw [aside, List.filter_append, List.filter_cons_of_neg (by simp [side]), List.filter_nil,
        List.append_nil]
  · simp only [side]
    constructor
    · rw [List.filter_append, List.filter_cons_of_neg side, List.filter_nil, List.append_nil]
      exact ordering
    · rw [List.filter_append, List.filter_cons_of_neg side, List.filter_nil, List.append_nil]
      exact left
    · simp [aside, side]

theorem sifted_nil (o : Orderings n) (axis : Axis) (start : Nat) :
    o.Sifted axis start [] ⟨o.along.get axis, start, o.scratch.take 0⟩ where
  ordering := (List.take_append_drop _ _).symm
  left := rfl
  aside := by simp

theorem sifted_sift (inside : span.stop ≤ (o.along.get axis).size) :
    o.Sifted axis span.start (o.slice axis span) (o.sift axis span) := by
  have upTo (k : Nat) (few : k ≤ span.length) : o.Sifted axis span.start ((o.slice axis span).take k)
      ((List.range' span.start k).foldl (Separating.look o.inLeft)
        ⟨o.along.get axis, span.start, o.scratch.take 0⟩) := by
    induction k with
    | zero => exact sifted_nil o axis span.start
    | succ k ih =>
        have less : k < (o.slice axis span).length := by
          rw [length_slice o axis inside]
          omega
        have seen : ((o.slice axis span).take k).length = k := List.length_take_of_le less.le
        have next : (o.along.get axis).toList[span.start + k]? = some (o.slice axis span)[k] := by
          rw [← List.getElem?_eq_getElem less, getElem?_slice, Array.getElem?_toList, if_pos]
          unfold Span.length at few
          omega
        have step := (ih (Nat.le_of_succ_le few)).look (i := (o.slice axis span)[k]) (by rw [seen, next])
        rw [seen] at step
        rw [List.range'_1_concat, List.foldl_append, List.take_succ_eq_append_getElem less]
        exact step
  have whole := upTo span.length (Nat.le_refl _)
  rwa [List.take_of_length_le (length_slice o axis inside).le] at whole

/-- Separating an ordering in place keeps the order on both sides. The triangles that were put aside
always fit in behind those of the left side. -/
theorem separate_eq (split : Nat) (ordered : span.start ≤ span.stop)
    (inside : span.stop ≤ (o.along.get axis).size)
    (areLefts : (o.slice axis span).filter (o.inLeft.get ·) = lefts)
    (areRights : (o.slice axis span).filter (not ∘ (o.inLeft.get ·)) = rights) :
    o.separate axis span split =
      if lefts.length = split then
        .ok { o.write axis span (lefts ++ rights) with scratch := (o.sift axis span).aside }
      else
        .error ⟨.unevenPartition, { o with
          along := o.along.set axis (o.sift axis span).ordering, scratch := (o.sift axis span).aside }⟩ := by
  obtain ⟨ordering, left, aside⟩ := sifted_sift inside
  rw [areLefts] at ordering left
  rw [areRights] at aside
  have both : lefts.length + rights.length = span.length := by
    rw [← length_slice o axis inside, ← areLefts, ← areRights, ← List.length_append]
    exact (List.filter_append_perm (o.inLeft.get ·) _).length_eq
  have before : ((o.along.get axis).toList.take span.start).length = span.start := by
    rw [List.length_take, Array.length_toList]
    omega
  have moved : (o.sift axis span).left + (o.sift axis span).aside.size = span.stop := by
    rw [← Array.length_toList, aside, left]
    unfold Span.length at both
    omega
  have result : (o.sift axis span).ordering.extract 0 (o.sift axis span).left ++
        (o.sift axis span).aside.toList.toArray ++
        (o.sift axis span).ordering.extract span.stop (o.sift axis span).ordering.size =
      (o.along.get axis).extract 0 span.start ++ (lefts ++ rights).toArray ++
        (o.along.get axis).extract span.stop (o.along.get axis).size := by
    apply Array.toList_inj.1
    have front : ((o.along.get axis).toList.take span.start ++ lefts).length =
        (o.sift axis span).left := by
      rw [List.length_append, before, left]
    have back : span.start + lefts.length + (span.stop - (o.sift axis span).left) = span.stop := by
      omega
    rw [← List.append_assoc] at ordering
    rw [toList_written, toList_written, aside, ordering, List.take_left' front, List.drop_append, front,
      List.drop_eq_nil_of_le (by omega), List.nil_append, List.drop_drop, back, List.append_assoc,
      List.append_assoc]
  unfold separate
  dsimp only
  by_cases number : lefts.length = split
  · rw [if_neg (by omega), if_neg (by omega), if_pos number]
    simp only [write, Vec3.get_set_self, Vec3.set_set, result]
  · rw [if_pos (by omega), if_neg number]

/-! ## Partitions -/

structure Parts (o : Orderings n) (axis : Axis) (span : Span) (split : Nat)
    (lefts rights : List (Fin n)) : Prop where
  left : (o.slice axis (span.cut split).1).Perm lefts
  right : (o.slice axis (span.cut split).2).Perm rights

theorem filter_of_marked {xs : List (Fin n)} (marked : o.Marked lefts rights)
    (same : xs.Perm (lefts ++ rights)) :
    (xs.filter (o.inLeft.get ·)).Perm lefts ∧ (xs.filter (not ∘ (o.inLeft.get ·))).Perm rights := by
  have allLeft : lefts.filter (o.inLeft.get ·) = lefts := List.filter_eq_self.2 marked.left
  have noneRight : rights.filter (o.inLeft.get ·) = [] := by
    rw [List.filter_eq_nil_iff]
    intro i member
    rw [Bool.not_eq_true]
    exact marked.right i member
  have noneLeft : lefts.filter (not ∘ (o.inLeft.get ·)) = [] := by
    rw [List.filter_eq_nil_iff]
    intro i member
    simp only [Function.comp, marked.left i member, Bool.not_true, Bool.false_eq_true,
      not_false_eq_true]
  have allRight : rights.filter (not ∘ (o.inLeft.get ·)) = rights := by
    rw [List.filter_eq_self]
    intro i member
    simp only [Function.comp, marked.right i member, Bool.not_false]
  have keptLeft := same.filter (o.inLeft.get ·)
  have keptRight := same.filter (not ∘ (o.inLeft.get ·))
  rw [List.filter_append, allLeft, noneRight, List.append_nil] at keptLeft
  rw [List.filter_append, noneLeft, allRight, List.nil_append] at keptRight
  exact ⟨keptLeft, keptRight⟩

theorem separate_ok (marked : o.Marked lefts rights) (ordered : span.start ≤ span.stop)
    (inside : span.stop ≤ (o.along.get axis).size) (same : (o.slice axis span).Perm (lefts ++ rights))
    (number : lefts.length = split) :
    ∃ o', o.separate axis span split = .ok o' ∧ o.Within o' span ∧ o'.inLeft = o.inLeft ∧
      o'.Parts axis span split lefts rights ∧
        ∀ axis' ≠ axis, o'.along.get axis' = o.along.get axis' := by
  obtain ⟨keptLeft, keptRight⟩ := filter_of_marked marked same
  have counted : ((o.slice axis span).filter (o.inLeft.get ·)).length = split :=
    keptLeft.length_eq.trans number
  have fits : ((o.slice axis span).filter (o.inLeft.get ·) ++
      (o.slice axis span).filter (not ∘ (o.inLeft.get ·))).length = span.length := by
    rw [← length_slice o axis inside, same.length_eq]
    exact (keptLeft.append keptRight).length_eq
  have short : split ≤ span.length := by
    rw [← fits, List.length_append]
    omega
  refine ⟨_, (separate_eq split ordered inside rfl rfl).trans (if_pos counted),
    (within_write ordered inside fits).withScratch _, rfl, ⟨?_, ?_⟩, fun axis' different =>
    get_write_of_ne different⟩
  · rw [slice_cut_left _ _ short, slice_withScratch, slice_write ordered inside fits,
      List.take_left' counted]
    exact keptLeft
  · rw [slice_cut_right, slice_withScratch, slice_write ordered inside fits, List.drop_left' counted]
    exact keptRight

theorem slice_congr (same : o'.along.get axis = o.along.get axis) (span : Span) :
    o'.slice axis span = o.slice axis span := by
  rw [slice, slice, same]

theorem foldlM_separate_ok {others : List Axis} (each : others.Nodup) (marked : o.Marked lefts rights)
    (ordered : span.start ≤ span.stop) (inside : ∀ axis, span.stop ≤ (o.along.get axis).size)
    (same : ∀ axis ∈ others, (o.slice axis span).Perm (lefts ++ rights))
    (number : lefts.length = split) :
    ∃ o', others.foldlM (fun o other => o.separate other span split) o = .ok o' ∧
      o.Within o' span ∧ (∀ axis ∈ others, o'.Parts axis span split lefts rights) ∧
        ∀ axis ∉ others, o'.along.get axis = o.along.get axis := by
  induction others generalizing o with
  | nil => exact ⟨o, rfl, .refl o span, nofun, fun _ _ => rfl⟩
  | cons first rest ih =>
      rw [List.nodup_cons] at each
      rw [List.forall_mem_cons] at same
      obtain ⟨o₁, separated, within₁, sides, parts₁, keeps₁⟩ :=
        separate_ok marked ordered (inside first) same.1 number
      have marked₁ : o₁.Marked lefts rights := by
        constructor
        · rw [sides]
          exact marked.left
        · rw [sides]
          exact marked.right
      -- Separating one ordering leaves the others as they were.
      have same₁ : ∀ axis ∈ rest, (o₁.slice axis span).Perm (lefts ++ rights) := by
        intro axis member
        have different : axis ≠ first := fun equal => each.1 (equal ▸ member)
        rw [slice_congr (keeps₁ axis different)]
        exact same.2 axis member
      obtain ⟨o₂, rest_ok, within₂, parts₂, keeps₂⟩ := ih each.2 marked₁
        (fun axis => (inside axis).trans_eq (within₁.size axis).symm) same₁
      refine ⟨o₂, ?_, within₁.trans within₂, ?_, ?_⟩
      · rw [List.foldlM_cons, separated]
        exact rest_ok
      · rw [List.forall_mem_cons]
        refine ⟨?_, parts₂⟩
        have unchanged := keeps₂ first each.1
        constructor
        · rw [slice_congr unchanged]
          exact parts₁.left
        · rw [slice_congr unchanged]
          exact parts₁.right
      · intro axis missing
        rw [List.mem_cons, not_or] at missing
        exact (keeps₂ axis missing.2).trans (keeps₁ axis missing.1)

theorem partition_ok (agree : o.Agree span) (axis : Axis) (inside : split ≤ span.length) :
    ∃ o', o.partition span axis split = .ok o' ∧ o.Within o' span ∧ ∀ axis',
      o'.Parts axis' span split ((o.slice axis span).take split) ((o.slice axis span).drop split) := by
  have sameAs (axis' : Axis) : (o.slice axis' span).Perm (o.slice axis span) :=
    (agree.same axis').trans (agree.same axis).symm
  have nodup : (o.slice axis span).Nodup := (agree.same axis).nodup_iff.2 agree.nodup
  have number : ((o.slice axis span).take split).length = split := by
    rw [List.length_take, length_slice o axis (agree.inside axis), Nat.min_eq_left inside]
  have same (axis' : Axis) : ((o.mark axis span split).slice axis' span).Perm
      ((o.slice axis span).take split ++ (o.slice axis span).drop split) := by
    rw [List.take_append_drop]
    exact sameAs axis'
  have each : (Axis.all.filter (· ≠ axis)).Nodup := List.Nodup.filter _ (by decide)
  obtain ⟨o', separated, within, parts, keeps⟩ := foldlM_separate_ok each (marked_mark nodup)
    agree.ordered agree.inside (fun axis' _ => same axis') number
  refine ⟨o', ?_, ⟨within.size, within.outside⟩, fun axis' => ?_⟩
  · have refused : ¬(span.length < split ∨ span.stop < span.start ∨
        (o.along.get axis).size < span.stop) := by
      have ordered := agree.ordered
      have inArray := agree.inside axis
      omega
    rw [partition, if_neg refused]
    exact separated
  · by_cases chosen : axis' = axis
    · subst chosen
      have unchanged : o'.along.get axis' = o.along.get axis' := keeps axis' (by simp)
      constructor
      · rw [slice_congr unchanged, slice_cut_left o axis' inside]
      · rw [slice_congr unchanged, slice_cut_right]
    · exact parts axis' (List.mem_filter.2 ⟨Axis.mem_all axis', decide_eq_true chosen⟩)

theorem agree_parts (agree : o.Agree span) (within : o.Within o' span) (inside : split ≤ span.length)
    (parts : ∀ axis', o'.Parts axis' span split ((o.slice axis span).take split)
      ((o.slice axis span).drop split)) :
    o'.Agree (span.cut split).1 ∧ o'.Agree (span.cut split).2 := by
  have ordered := agree.ordered
  have inArray (axis' : Axis) := (agree.inside axis').trans_eq (within.size axis').symm
  have nodup : ((o.slice axis span).take split ++ (o.slice axis span).drop split).Nodup := by
    rw [List.take_append_drop]
    exact (agree.same axis).nodup_iff.2 agree.nodup
  have nodupParts := List.nodup_append.1 nodup
  unfold Span.length at inside
  constructor
  · constructor
    · exact Nat.le_add_right _ _
    · intro axis'
      have stop := inArray axis'
      simp only [Span.cut]
      omega
    · exact fun axis' => (parts axis').left.trans (parts .x).left.symm
    · exact (parts .x).left.nodup_iff.2 nodupParts.1
  · constructor
    · simp only [Span.cut]
      omega
    · exact inArray
    · exact fun axis' => (parts axis').right.trans (parts .x).right.symm
    · exact (parts .x).right.nodup_iff.2 nodupParts.2.1

theorem perm_ofCentroids (centroids : Vector (Vec3 Float32) n) (axis : Axis) :
    ((ofCentroids centroids).along.get axis).toList.Perm (List.finRange n) := by
  rw [ofCentroids, Vec3.get_ofFn]
  have kept := (List.mergeSort_perm ((List.finRange n).map (CentroidKey.of centroids axis))
    CentroidKey.le).map (·.triangle)
  rw [List.map_map] at kept
  exact kept.trans (.of_eq (List.map_id' _))

theorem agree_ofCentroids (centroids : Vector (Vec3 Float32) n) :
    (ofCentroids centroids).Agree ⟨0, n⟩ ∧
      ∀ axis, ((ofCentroids centroids).slice axis ⟨0, n⟩).Perm (List.finRange n) := by
  have sorted := perm_ofCentroids centroids
  have size (axis : Axis) : ((ofCentroids centroids).along.get axis).size = n := by
    rw [← Array.length_toList, (sorted axis).length_eq, List.length_finRange]
  have whole (axis : Axis) : ((ofCentroids centroids).slice axis ⟨0, n⟩).Perm (List.finRange n) := by
    rw [slice_eq, List.drop_zero, List.take_of_length_le (by rw [Array.length_toList, size axis]; rfl)]
    exact sorted axis
  refine ⟨⟨Nat.zero_le n, fun axis => (size axis).ge, fun axis => (whole axis).trans (whole .x).symm,
    ?_⟩, whole⟩
  exact (whole .x).nodup_iff.2 (List.nodup_finRange n)

end Orderings

end BoxTree

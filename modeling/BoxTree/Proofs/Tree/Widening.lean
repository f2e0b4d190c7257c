import BoxTree.Proofs.Tree.AnyHit
import BoxTree.Proofs.Tree.Pruning

/-!
# Wider queries

As long as a query for any hit has none, what it opens depends on its limits alone and not on the order
in which it looks at children. So it ends with a hit just when a way from the root leads down to a leaf
with one. Wider limits leave every such way open, since each box on it gives a wider interval.
-/

namespace BoxTree
open Scalar

structure Frame.Covers (wide narrow : Frame) : Prop where
  link : wide.link = narrow.link
  interval : wide.interval.Contains narrow.interval

namespace Tree

/-- The frame of a child that a query without a hit opens when it looks at another frame. -/
inductive Opens (t : Tree) (ray : Ray) (frame : Frame) : Frame → Prop
  | child {index : Nat} {node : Node} {opened : Frame} (side : Side)
      (refers : frame.link.target = .inner index) (there : t.nodes[index]? = some node)
      (met : (node.child side).frame?
        ((node.clip ray frame.interval.entry frame.interval.exit).get side) = some opened) :
      t.Opens ray frame opened

def Scores (t : Tree) (ray : Ray) (maxT : Float32) (frame : Frame) : Prop :=
  ∃ range, frame.link.target = .leaf range ∧
    ∃ batch ∈ range.toList, ∃ hits, t.batchHits ray maxT batch = .ok hits ∧ hits ≠ []

/-- A frame from which a way leads down to a leaf with a hit. -/
inductive Leads (t : Tree) (ray : Ray) (maxT : Float32) : Frame → Prop
  | here {frame : Frame} (scores : t.Scores ray maxT frame) : t.Leads ray maxT frame
  | down {frame opened : Frame} (opens : t.Opens ray frame opened)
      (leads : t.Leads ray maxT opened) : t.Leads ray maxT frame

variable {t : Tree} {ray : Ray} {maxT : Float32} {frame : Frame}

/-! ## Opened children -/

theorem frame?_eq_some {child : Child} {interval : Interval} :
    child.frame? interval = some frame ↔ interval.Nonempty ∧ frame = ⟨child.link, interval⟩ := by
  rw [Child.frame?, Option.map_eq_some_iff]
  constructor
  · rintro ⟨_, given, rfl⟩
    obtain ⟨nonempty, rfl⟩ := Interval.nonempty?_eq_some.1 given
    exact ⟨nonempty, rfl⟩
  · rintro ⟨nonempty, rfl⟩
    exact ⟨interval, Interval.nonempty?_eq_some.2 ⟨nonempty, rfl⟩, rfl⟩

theorem Opens.nonempty {opened : Frame} (opens : t.Opens ray frame opened) :
    opened.interval.Nonempty := by
  obtain ⟨side, _, _, met⟩ := opens
  obtain ⟨nonempty, rfl⟩ := frame?_eq_some.1 met
  exact nonempty

theorem mem_expand {node : Node} {tMin tMax : Float32} {deferred after : List Frame}
    {current : Option Frame} (expanded : expand node ray tMin tMax deferred = .ok (current, after)) :
    frame ∈ current.toList ++ after ↔ frame ∈ deferred ∨
      ∃ side, (node.child side).frame? ((node.clip ray tMin tMax).get side) = some frame := by
  have sides {P : Side → Prop} : (∃ side, P side) ↔ P .left ∨ P .right :=
    ⟨fun ⟨side, holds⟩ => by cases side; exacts [.inl holds, .inr holds],
      fun either => either.elim (⟨.left, ·⟩) (⟨.right, ·⟩)⟩
  rw [sides]
  simp only [Node.child, Sides.get]
  unfold expand at expanded
  cases left : node.left.frame? (node.clip ray tMin tMax).left <;>
    cases right : node.right.frame? (node.clip ray tMin tMax).right <;>
    simp only [left, right] at expanded
  · cases expanded
    simp
  · cases expanded
    simp [eq_comm, or_comm]
  · cases expanded
    simp [eq_comm, or_comm]
  · split at expanded
    · split at expanded <;> cases expanded <;> simp [eq_comm, or_comm, or_left_comm, or_assoc]
    · cases expanded

/-! ## Visits -/

theorem scanBatches_any {batches : List Nat} {answer : Option Hit × Bool}
    (scanned : t.scanBatches .any ray maxT batches none = .ok answer) :
    answer.2 = answer.1.isSome ∧ (answer.1.isSome = true ↔
      ∃ batch ∈ batches, ∃ hits, t.batchHits ray maxT batch = .ok hits ∧ hits ≠ []) := by
  induction batches with
  | nil =>
      cases scanned
      exact ⟨rfl, nofun, fun ⟨_, member, _⟩ => nomatch member⟩
  | cons batch batches ih =>
      unfold scanBatches at scanned
      obtain ⟨hits, tested, rest⟩ := bind_eq_ok.1 scanned
      obtain ⟨⟨next, stop⟩, lanes, rest⟩ := bind_eq_ok.1 rest
      cases hits with
      | nil =>
          cases lanes
          obtain ⟨ends, found⟩ := ih rest
          refine ⟨ends, found.trans ?_⟩
          simp only [List.exists_mem_cons_iff, tested, Except.ok.injEq, exists_eq_left', ne_eq,
            not_true_eq_false, false_or]
      | cons hit hits =>
          -- Without a hit to compare with, the first lane is accepted.
          have accepted : Hit.improves hit.2.distance none = true := rfl
          simp only [scanLanes, if_pos accepted] at lanes
          cases there : t.batches[batch]? with
          | none =>
              rw [there] at lanes
              cases lanes
          | some indices =>
              rw [there] at lanes
              cases lanes
              cases rest
              exact ⟨rfl, fun _ => ⟨batch, List.mem_cons_self, _, tested, List.cons_ne_nil _ _⟩,
                fun _ => rfl⟩

theorem visit_any {deferred : List Frame} {next : Search} (nonempty : frame.interval.Nonempty)
    (visited : t.visit .any ray maxT frame deferred none = .ok next) :
    (next.best.isSome = true ∧ t.Scores ray maxT frame) ∨
      (next.best = none ∧ next.finished = false ∧ ¬t.Scores ray maxT frame ∧
        ∀ f, f ∈ next.frames ↔ f ∈ deferred ∨ t.Opens ray frame f) := by
  have deferredOnly (refers : ∀ index, frame.link.target ≠ .inner index) (f : Frame) :
      f ∈ deferred ↔ f ∈ deferred ∨ t.Opens ray frame f :=
    ⟨.inl, fun either => either.resolve_right fun ⟨_, inner, _, _⟩ => refers _ inner⟩
  cases visit_eq_ok.1 visited with
  | beyond far =>
      obtain ⟨numberEntry, numberExit, _⟩ := le_iff.1 nonempty
      exact absurd far ((not_lt_iff numberExit numberEntry).2 nonempty)
  | missing near refers =>
      refine .inr ⟨rfl, rfl, fun ⟨_, leaf, _⟩ => ?_, deferredOnly fun index inner => ?_⟩
      · cases refers.symm.trans leaf
      · cases refers.symm.trans inner
  | inner near refers there expanded =>
      refine .inr ⟨rfl, rfl, fun ⟨_, leaf, _⟩ => ?_, fun f => ?_⟩
      · cases refers.symm.trans leaf
      · refine (mem_expand expanded).trans (or_congr_right ⟨?_, ?_⟩)
        · exact fun ⟨side, met⟩ => .child side refers there met
        · rintro ⟨side, refers', there', met⟩
          cases refers.symm.trans refers'
          cases there.symm.trans there'
          exact ⟨side, met⟩
  | @leaf range found stop near refers scanned =>
      obtain ⟨ends, iff⟩ := scanBatches_any scanned
      cases found with
      | some hit => exact .inl ⟨rfl, range, refers, iff.1 rfl⟩
      | none =>
          refine .inr ⟨rfl, ends, fun ⟨range', leaf, hits⟩ => ?_, deferredOnly fun index inner => ?_⟩
          · cases refers.symm.trans leaf
            cases iff.2 hits
          · cases refers.symm.trans inner

/-! ## Whole searches -/

theorem Answers.any_iff {s : Search} {answer : Option Hit × TraversalStack}
    (answers : t.Answers .any ray maxT s answer) (goesOn : s.finished = false) (unmet : s.best = none)
    (nonempty : ∀ f ∈ s.frames, f.interval.Nonempty) :
    answer.1.isSome = true ↔ ∃ f ∈ s.frames, t.Leads ray maxT f := by
  induction answers with
  | @ended s ends =>
      have nothing : s.frames = [] := by
        by_contra some
        exact next?_of_frames goesOn some ends
      simp only [unmet, nothing, Option.isSome_none, Bool.false_eq_true, List.not_mem_nil, false_and,
        exists_false]
  | @step s next frame deferred answer pending visited rest ih =>
      rw [unmet] at visited
      obtain ⟨frames, _⟩ := Search.frames_of_next? pending
      rw [frames, List.forall_mem_cons] at nonempty
      rw [frames, List.exists_mem_cons_iff]
      rcases visit_any nonempty.1 visited with ⟨found, scores⟩ | ⟨unmet', goesOn', misses, opened⟩
      · exact ⟨fun _ => .inl (.here scores), fun _ => rest.isSome found⟩
      · have nonempty' : ∀ f ∈ next.frames, f.interval.Nonempty := fun f member =>
          ((opened f).1 member).elim (nonempty.2 f) Opens.nonempty
        rw [ih goesOn' unmet' nonempty']
        constructor
        · rintro ⟨f, member, leads⟩
          rcases (opened f).1 member with waits | opens
          · exact .inr ⟨f, waits, leads⟩
          · exact .inl (.down opens leads)
        · rintro (leads | ⟨f, waits, leads⟩)
          · cases leads with
            | here scores => exact absurd scores misses
            | down opens leads => exact ⟨_, (opened _).2 (.inr opens), leads⟩
          · exact ⟨f, (opened f).2 (.inl waits), leads⟩

theorem search_any_iff {stack rest : TraversalStack} {best : Option Hit}
    (found : t.search .any ray maxT stack = .ok (best, rest)) :
    best.isSome = true ↔
      ∃ interval, ray.clip? t.bounds ray.minT maxT = some interval ∧
        t.Leads ray maxT ⟨rootLink, interval⟩ := by
  unfold search at found
  cases meets : ray.clip? t.bounds ray.minT maxT with
  | none =>
      rw [meets] at found
      cases found
      exact ⟨nofun, nofun⟩
  | some interval =>
      rw [meets] at found
      have frames : (start interval stack).frames = [⟨rootLink, interval⟩] := rfl
      have nonempty : ∀ f ∈ (start interval stack).frames, f.interval.Nonempty := by
        rw [frames, List.forall_mem_singleton]
        obtain ⟨nonempty, same⟩ := Interval.nonempty?_eq_some.1 meets
        exact same ▸ nonempty
      rw [(answers_of_searchFrom found).any_iff rfl rfl nonempty, frames]
      simp only [List.mem_singleton, exists_eq_left, Option.some.injEq, exists_eq_left']

/-! ## Wider limits -/

variable {near near' far far' : Float32}

theorem Opens.covers {narrow wide opened : Frame} (opens : t.Opens (ray.withMinT near) narrow opened)
    (covers : wide.Covers narrow) :
    ∃ opened', t.Opens (ray.withMinT near') wide opened' ∧ opened'.Covers opened := by
  obtain @⟨index, node, _, side, refers, there, met⟩ := opens
  rw [Ray.get_clip] at met
  obtain ⟨nonempty, rfl⟩ := frame?_eq_some.1 met
  let clipped (i : Interval) : Interval := ray.packedClip (node.child side).box i.entry i.exit
  have wider : (clipped wide.interval).Contains (clipped narrow.interval) :=
    Ray.packedClip_contains covers.interval.entry covers.interval.exit
  refine ⟨⟨(node.child side).link, clipped wide.interval⟩, .child side (covers.link ▸ refers) there ?_,
    rfl, wider⟩
  rw [Ray.get_clip]
  exact frame?_eq_some.2 ⟨wider.nonempty nonempty, rfl⟩

theorem Scores.covers {narrow wide : Frame} (nearer : near' ≤ near) (farther : far ≤ far')
    (scores : t.Scores (ray.withMinT near) far narrow) (covers : wide.Covers narrow) :
    t.Scores (ray.withMinT near') far' wide := by
  obtain ⟨range, refers, batch, member, hits, tested, some⟩ := scores
  obtain ⟨⟨lane, hit⟩, found⟩ := List.exists_mem_of_ne_nil hits some
  obtain ⟨triangles, cached, reported⟩ := batchHits_eq_ok tested
  obtain ⟨met, after, before⟩ := (reported lane hit).1 found
  have tested' : t.batchHits (ray.withMinT near') far' batch =
      .ok ((triangles.intersect ray).filter fun hit =>
        decide (near' ≤ hit.2.distance) && decide (hit.2.distance ≤ far')) := by
    unfold batchHits
    rw [cached]
    rfl
  obtain ⟨triangles', cached', reported'⟩ := batchHits_eq_ok tested'
  obtain rfl := Option.some.inj (cached.symm.trans cached')
  refine ⟨range, covers.link ▸ refers, batch, member, _, tested', List.ne_nil_of_mem ((reported' lane hit).2
    ⟨met, le_trans_scalar nearer after, le_trans_scalar before farther⟩)⟩

theorem Leads.covers {narrow wide : Frame} (nearer : near' ≤ near) (farther : far ≤ far')
    (leads : t.Leads (ray.withMinT near) far narrow) (covers : wide.Covers narrow) :
    t.Leads (ray.withMinT near') far' wide := by
  induction leads generalizing wide with
  | here scores => exact .here (scores.covers nearer farther covers)
  | down opens _ ih =>
      obtain ⟨opened', opens', covers'⟩ := opens.covers covers
      exact .down opens' (ih covers')

/-- In a valid tree a ray that has any hit between two limits has one between wider limits, whatever the
boxes are and whatever the stacks of the two queries held before. -/
theorem anyHit_mono {source : TriangleSource} (cached : t.triangles.size = t.batches.size)
    (valid : t.validate source = .ok ()) (ray : Ray) (nearer : near' ≤ near) (farther : far ≤ far')
    (stack stack' : TraversalStack) :
    ∃ any rest any' rest', t.anyHit (ray.withMinT near) far stack = .ok (any, rest) ∧
      t.anyHit (ray.withMinT near') far' stack' = .ok (any', rest') ∧ (any = true → any' = true) := by
  obtain ⟨_, root, shaped⟩ := ((settles_validate t source).ok_iff ()).1 valid
  obtain ⟨⟨best, rest⟩, found⟩ :=
    @search_ok t .any (ray.withMinT near) far source root shaped cached stack
  obtain ⟨⟨best', rest'⟩, found'⟩ :=
    @search_ok t .any (ray.withMinT near') far' source root shaped cached stack'
  refine ⟨best.isSome, rest, best'.isSome, rest', ?_, ?_, fun some => ?_⟩
  · rw [anyHit, found]
    rfl
  · rw [anyHit, found']
    rfl
  · obtain ⟨interval, clipped, leads⟩ := (search_any_iff found).1 some
    obtain ⟨wide, clipped', contains⟩ := Ray.clip?_contains nearer farther clipped
    exact (search_any_iff found').2 ⟨wide, clipped', leads.covers nearer farther ⟨rfl, contains⟩⟩

/-- Between the narrow limits lies the middle floor only, and between the wide ones the others as well. -/
theorem anyHit_mono_tower :
    tower.triangles.size = tower.batches.size ∧ tower.validate floors = .ok () ∧
      ∃ rest rest', tower.anyHit (downward.withMinT 10.5) 11.5 {} = .ok (true, rest) ∧
        tower.anyHit (downward.withMinT 0) infinity {} = .ok (true, rest') ∧
          rest.frames.length = 0 ∧ rest'.frames.length = 2 := by
  have cached : tower.triangles.size = tower.batches.size := by decide +kernel
  have valid : tower.validate floors = .ok () := by decide +kernel
  obtain ⟨any, rest, any', rest', found, found', wider⟩ :=
    @anyHit_mono tower 10.5 0 11.5 infinity floors cached valid downward (by decide +kernel) (by decide +kernel)
      {} {}
  obtain ⟨_, again, isHit⟩ := exists_ok_of_any (tower.anyHit (downward.withMinT 10.5) 11.5 {})
    (fun answer => answer.1 && decide (answer.2.frames.length = 0)) (by decide +kernel)
  obtain ⟨_, again', left'⟩ := exists_ok_of_any (tower.anyHit (downward.withMinT 0) infinity {})
    (fun answer => decide (answer.2.frames.length = 2)) (by decide +kernel)
  cases again.symm.trans found
  cases again'.symm.trans found'
  obtain ⟨isHit, left⟩ := Bool.and_eq_true_iff.1 isHit
  obtain rfl : any = true := isHit
  obtain rfl : any' = true := wider rfl
  exact ⟨cached, valid, rest, rest', found, found', of_decide_eq_true left, of_decide_eq_true left'⟩

end Tree

end BoxTree

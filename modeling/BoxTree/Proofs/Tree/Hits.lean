import BoxTree.Proofs.Tree.Build
import BoxTree.Proofs.Triangle

/-!
# Reported hits

The best hit of a query changes only to a hit that one of the batches reports. In a built tree the
batch has the triangles of the source that the tree names for it, so that every reported hit is one of
the triangle that it names.
-/

namespace BoxTree
open Scalar

/-- A hit of a triangle of the source, between the nearest distance of the ray and a farthest one. -/
structure Hit.Genuine (source : TriangleSource) (ray : Ray) (maxT : Float32) (hit : Hit) : Prop where
  known : hit.triangle < source.count
  met : (source.triangle ⟨hit.triangle, known⟩).intersect? ray = some ⟨hit.distance, hit.uv⟩
  near : ray.minT ≤ hit.distance
  far : hit.distance ≤ maxT

namespace Tree

variable {t : Tree} {query : Query} {ray : Ray} {maxT : Float32} {best best' : Option Hit} {done : Bool}

def Reports (t : Tree) (ray : Ray) (maxT : Float32) (batch : Nat) (hit : Hit) : Prop :=
  ∃ hits lane indices, t.batchHits ray maxT batch = .ok hits ∧
    (lane, ⟨hit.distance, hit.uv⟩) ∈ hits ∧ t.batches[batch]? = some indices ∧
      hit.triangle = indices.get lane

theorem batchHits_eq_ok {batch : Nat} {hits : List (Fin 4 × TriangleHit)}
    (tested : t.batchHits ray maxT batch = .ok hits) :
    ∃ triangles, t.triangles[batch]? = some triangles ∧ ∀ lane hit, (lane, hit) ∈ hits ↔
      (lane, hit) ∈ triangles.intersect ray ∧ ray.minT ≤ hit.distance ∧ hit.distance ≤ maxT := by
  unfold batchHits at tested
  cases found : t.triangles[batch]? with
  | none =>
      rw [found] at tested
      cases tested
  | some triangles =>
      rw [found] at tested
      obtain rfl := Except.ok.inj tested
      refine ⟨triangles, rfl, fun lane hit => ?_⟩
      simp only [List.mem_filter, Bool.and_eq_true, decide_eq_true_eq]

/-! ## Where the best hit comes from -/

theorem scanLanes_best {batch : Nat} {hits : List (Fin 4 × TriangleHit)}
    (scanned : t.scanLanes query batch hits best = .ok (best', done)) :
    best' = best ∨ ∃ lane hit indices, (lane, hit) ∈ hits ∧ t.batches[batch]? = some indices ∧
      best' = some ⟨hit.distance, hit.uv, indices.get lane⟩ := by
  induction hits generalizing best with
  | nil =>
      cases scanned
      exact .inl rfl
  | cons first hits ih =>
      obtain ⟨lane, hit⟩ := first
      unfold scanLanes at scanned
      by_cases better : Hit.improves hit.distance best
      · rw [if_pos better] at scanned
        cases there : t.batches[batch]? with
        | none =>
            rw [there] at scanned
            cases scanned
        | some indices =>
            rw [there] at scanned
            cases query with
            | any =>
                cases scanned
                exact .inr ⟨lane, hit, indices, List.mem_cons_self, rfl, rfl⟩
            | closest =>
                rcases ih scanned with same | ⟨lane', hit', indices', member, found, same⟩
                · exact .inr ⟨lane, hit, indices, List.mem_cons_self, rfl, same⟩
                · exact .inr ⟨lane', hit', indices', List.mem_cons_of_mem _ member,
                    there ▸ found, same⟩
      · rw [if_neg better] at scanned
        rcases ih scanned with same | ⟨lane', hit', indices', member, found, same⟩
        · exact .inl same
        · exact .inr ⟨lane', hit', indices', List.mem_cons_of_mem _ member, found, same⟩

theorem scanBatches_best {batches : List Nat}
    (scanned : t.scanBatches query ray maxT batches best = .ok (best', done)) :
    best' = best ∨ ∃ batch ∈ batches, ∃ hit, t.Reports ray maxT batch hit ∧ best' = some hit := by
  induction batches generalizing best with
  | nil =>
      cases scanned
      exact .inl rfl
  | cons batch batches ih =>
      unfold scanBatches at scanned
      obtain ⟨hits, tested, rest⟩ := bind_eq_ok.1 scanned
      obtain ⟨⟨next, stop⟩, lanes, rest⟩ := bind_eq_ok.1 rest
      have first : next = best ∨ ∃ hit, t.Reports ray maxT batch hit ∧ next = some hit := by
        rcases scanLanes_best lanes with same | ⟨lane, hit, indices, member, there, same⟩
        · exact .inl same
        · exact .inr ⟨_, ⟨hits, lane, indices, tested, member, there, rfl⟩, same⟩
      have here : next = best ∨ ∃ other ∈ batch :: batches, ∃ hit, t.Reports ray maxT other hit ∧
          next = some hit := by
        obtain same | ⟨hit, reports, same⟩ := first
        · exact .inl same
        · exact .inr ⟨batch, List.mem_cons_self, hit, reports, same⟩
      cases stop with
      | true =>
          cases rest
          exact here
      | false =>
          rcases ih rest with same | ⟨other, member, hit, reports, same⟩
          · exact same ▸ here
          · exact .inr ⟨other, List.mem_cons_of_mem _ member, hit, reports, same⟩

/-! ## Ends of scans -/

theorem scanLanes_goesOn {batch : Nat} {hits : List (Fin 4 × TriangleHit)} {best : Option Hit}
    {answer : Option Hit × Bool} (scanned : t.scanLanes .closest batch hits best = .ok answer) :
    answer.2 = false := by
  induction hits generalizing best with
  | nil =>
      cases scanned
      rfl
  | cons hit hits ih =>
      unfold scanLanes at scanned
      split at scanned
      · split at scanned
        · cases scanned
        · exact ih scanned
      · exact ih scanned

theorem scanBatches_goesOn {batches : List Nat} {best : Option Hit} {answer : Option Hit × Bool}
    (scanned : t.scanBatches .closest ray maxT batches best = .ok answer) : answer.2 = false := by
  induction batches generalizing best with
  | nil =>
      cases scanned
      rfl
  | cons batch batches ih =>
      unfold scanBatches at scanned
      obtain ⟨hits, _, rest⟩ := bind_eq_ok.1 scanned
      obtain ⟨⟨next, stop⟩, lanes, rest⟩ := bind_eq_ok.1 rest
      obtain rfl : stop = false := scanLanes_goesOn lanes
      exact ih rest

/-! ## Visits -/

inductive Visits (t : Tree) (query : Query) (ray : Ray) (maxT : Float32) (frame : Frame)
    (deferred : List Frame) (best : Option Hit) : Search → Prop
  | beyond (far : frame.interval.entry > frame.limit best) :
      t.Visits query ray maxT frame deferred best { current := none, deferred, best }
  | missing (near : ¬frame.interval.entry > frame.limit best) (refers : frame.link.target = .missing) :
      t.Visits query ray maxT frame deferred best { current := none, deferred, best }
  | inner {index : Nat} {node : Node} {current : Option Frame} {after : List Frame}
      (near : ¬frame.interval.entry > frame.limit best)
      (refers : frame.link.target = .inner index) (there : t.nodes[index]? = some node)
      (expanded : expand node ray frame.interval.entry (frame.limit best) deferred =
        .ok (current, after)) :
      t.Visits query ray maxT frame deferred best { current, deferred := after, best }
  | leaf {range : BatchRange} {found : Option Hit} {stop : Bool}
      (near : ¬frame.interval.entry > frame.limit best)
      (refers : frame.link.target = .leaf range)
      (scanned : t.scanBatches query ray maxT range.toList best = .ok (found, stop)) :
      t.Visits query ray maxT frame deferred best
        { current := none, deferred, best := found, finished := stop }

theorem visit_eq_ok {frame : Frame} {deferred : List Frame} {next : Search} :
    t.visit query ray maxT frame deferred best = .ok next ↔
      t.Visits query ray maxT frame deferred best next := by
  constructor
  · intro visited
    unfold visit at visited
    by_cases far : frame.interval.entry > frame.limit best
    · simp only [if_pos far] at visited
      cases visited
      exact .beyond far
    · simp only [if_neg far] at visited
      cases refers : frame.link.target with
      | missing =>
          rw [refers] at visited
          cases visited
          exact .missing far refers
      | inner index =>
          simp only [refers] at visited
          cases there : t.nodes[index]? with
          | none =>
              rw [there] at visited
              cases visited
          | some node =>
              rw [there] at visited
              obtain ⟨_, expanded, same⟩ := bind_eq_ok.1 visited
              cases same
              exact .inner far refers there expanded
      | leaf range =>
          simp only [refers] at visited
          obtain ⟨_, scanned, same⟩ := bind_eq_ok.1 visited
          cases same
          exact .leaf far refers scanned
  · intro visits
    unfold visit
    cases visits with
    | beyond far => simp only [if_pos far]
    | missing near refers => simp only [if_neg near, refers]
    | inner near refers there expanded =>
        simp only [if_neg near, refers, there, expanded, ok_bind]
        rfl
    | leaf near refers scanned =>
        simp only [if_neg near, refers, scanned, ok_bind]
        rfl

theorem visit_best {frame : Frame} {deferred : List Frame} {next : Search}
    (visited : t.visit query ray maxT frame deferred best = .ok next) :
    next.best = best ∨ ∃ batch ∈ frame.link.target.batches, ∃ hit, t.Reports ray maxT batch hit ∧
      next.best = some hit := by
  cases visit_eq_ok.1 visited with
  | beyond far => exact .inl rfl
  | missing near refers => exact .inl rfl
  | inner near refers there expanded => exact .inl rfl
  | leaf near refers scanned =>
      rw [refers]
      exact scanBatches_best scanned

/-! ## Whole searches -/

inductive Answers (t : Tree) (query : Query) (ray : Ray) (maxT : Float32) :
    Search → Option Hit × TraversalStack → Prop
  | ended {s : Search} (ends : s.next? = none) : t.Answers query ray maxT s (s.best, ⟨s.deferred⟩)
  | step {s next : Search} {frame : Frame} {deferred : List Frame}
      {answer : Option Hit × TraversalStack} (pending : s.next? = some (frame, deferred))
      (visited : t.visit query ray maxT frame deferred s.best = .ok next)
      (rest : t.Answers query ray maxT next answer) : t.Answers query ray maxT s answer

theorem answers_of_searchFrom {steps : Nat} {s : Search} {answer : Option Hit × TraversalStack}
    (found : t.searchFrom query ray maxT steps s = .ok answer) : t.Answers query ray maxT s answer := by
  induction steps generalizing s with
  | zero =>
      unfold searchFrom at found
      cases pending : s.next? with
      | none =>
          rw [pending] at found
          cases found
          exact .ended pending
      | some next =>
          rw [pending] at found
          cases found
  | succ steps ih =>
      unfold searchFrom at found
      cases pending : s.next? with
      | none =>
          rw [pending] at found
          cases found
          exact .ended pending
      | some next =>
          simp only [pending] at found
          obtain ⟨_, visited, found⟩ := bind_eq_ok.1 found
          exact .step pending visited (ih found)

theorem Answers.keeps {P : Search → Prop}
    (kept : ∀ s frame deferred next, P s → s.next? = some (frame, deferred) →
      t.visit query ray maxT frame deferred s.best = .ok next → P next)
    {s : Search} {answer : Option Hit × TraversalStack} (answers : t.Answers query ray maxT s answer)
    (holds : P s) : ∃ last, P last ∧ last.next? = none ∧ last.best = answer.1 := by
  induction answers with
  | @ended s ends => exact ⟨s, holds, ends, rfl⟩
  | step pending visited _ ih => exact ih (kept _ _ _ _ holds pending visited)

theorem search_best {P : Hit → Prop} (reported : ∀ batch hit, t.Reports ray maxT batch hit → P hit)
    {stack rest : TraversalStack} (found : t.search query ray maxT stack = .ok (best, rest)) :
    ∀ hit ∈ best, P hit := by
  unfold search at found
  cases meets : ray.clip? t.bounds ray.minT maxT with
  | none =>
      rw [meets] at found
      cases found
      exact nofun
  | some interval =>
      rw [meets] at found
      obtain ⟨last, holds, _, rfl⟩ := (answers_of_searchFrom found).keeps
        (P := fun s => ∀ hit ∈ s.best, P hit)
        (fun s frame deferred next holds _ visited hit member => by
          rcases visit_best visited with same | ⟨batch, _, other, reports, same⟩
          · exact holds hit (same ▸ member)
          · obtain rfl := Option.some.inj (same ▸ member : some other = some hit)
            exact reported batch other reports)
        (fun hit member => absurd member (Option.not_mem_none hit))
      exact holds

/-! ## Hits of built trees -/

variable {source : TriangleSource} {select : Binned.Selection source.count} {s : Settings}

theorem triangle?_eq_some {index : Nat} {facet : Facet} (found : source.triangle? index = some facet) :
    ∃ known : index < source.count, source.triangle ⟨index, known⟩ = facet := by
  unfold TriangleSource.triangle? at found
  split at found
  · exact ⟨_, Option.some.inj found⟩
  · cases found

theorem genuine_of_reports (caches : t.Caches source) {batch : Nat} {hit : Hit}
    (reports : t.Reports ray maxT batch hit) : hit.Genuine source ray maxT := by
  obtain ⟨hits, lane, indices, tested, member, there, same⟩ := reports
  obtain ⟨triangles, cached, reported⟩ := batchHits_eq_ok tested
  obtain ⟨met, near, far⟩ := (reported _ _).1 member
  obtain ⟨indices', there', gathered⟩ := caches batch triangles cached
  obtain rfl := Option.some.inj (there.symm.trans there')
  obtain ⟨facets, mapped, rfl⟩ := gather_eq_ok.1 gathered
  obtain ⟨known, facet⟩ := triangle?_eq_some (Lanes.get_of_mapM? mapped lane)
  obtain ⟨distance, uv, triangle⟩ := hit
  subst same
  refine ⟨known, ?_, near, far⟩
  rw [facet]
  exact TriangleBatch.mem_intersect.1 met

/-- Every query for the nearest hit of a built tree is answered, and an answer is a hit of the triangle
that it names: the triangle alone gives the same distance and the same weights. -/
theorem closestHit?_genuine (lawful : select.Lawful)
    (built : buildSelecting source select s = .ok t) (ray : Ray) (maxT : Float32)
    (stack : TraversalStack) :
    ∃ best rest, t.closestHit? ray maxT stack = .ok (best, rest) ∧
      (∀ hit ∈ best, hit.triangle < t.triangleCount ∧ hit.Genuine source ray maxT) ∧
      (source.count = 0 → best = none) := by
  obtain ⟨⟨count, root, shaped⟩, cached, caches, _⟩ := built_ok lawful built
  obtain ⟨⟨best, rest⟩, found⟩ := @search_ok t .closest ray maxT source root shaped cached stack
  have genuine : ∀ hit ∈ best, hit.Genuine source ray maxT :=
    search_best (fun _ _ reports => genuine_of_reports caches reports) found
  refine ⟨best, rest, found, fun hit member => ⟨count ▸ (genuine hit member).known, genuine hit member⟩,
    fun empty => ?_⟩
  cases best with
  | none => rfl
  | some hit => exact absurd (genuine hit rfl).known (by omega)

/-- From above all floors the highest one is hit, which is not the first one of the source. -/
theorem closestHit?_genuine_floors :
    ∃ t hit rest, buildSelecting floors Binned.Selection.sorted (leafEach .binned) = .ok t ∧
      t.closestHit? downward infinity {} = .ok (some hit, rest) ∧ hit.triangle = 2 ∧
        (hit.distance == 1) = true ∧ hit.Genuine floors downward infinity := by
  obtain ⟨t, built, answers⟩ := exists_ok_of_any
    (buildSelecting floors Binned.Selection.sorted (leafEach .binned))
    (fun t => (t.closestHit? downward infinity {}).toOption.any fun answer =>
      answer.1.any fun (hit : Hit) => decide (hit.triangle = 2) && hit.distance == 1) (by decide +kernel)
  obtain ⟨best, rest, found, genuine, _⟩ :=
    closestHit?_genuine Binned.Selection.sorted_lawful built downward infinity {}
  rw [found] at answers
  cases best with
  | none => cases answers
  | some hit =>
      obtain ⟨named, distance⟩ := Bool.and_eq_true_iff.1 answers
      exact ⟨t, hit, rest, built, found, of_decide_eq_true named, distance, (genuine hit rfl).2⟩

end Tree

end BoxTree

import BoxTree.Proofs.Tree.Hits

/-!
# Queries for any hit

A query for any hit goes the way of the query for the nearest hit until one of them accepts a hit. Both
accept their first hit in the same lane, as nothing is known before that could reject it. From there on
the one query is at its end and the other one only changes its hit for a nearer one.
-/

namespace BoxTree.Tree
open Scalar

variable {t : Tree} {ray : Ray} {maxT : Float32}

structure ScansAgree (nearest any : Option Hit × Bool) : Prop where
  found : nearest.1.isSome = any.1.isSome
  goesOn : nearest.2 = false
  ends : any.2 = any.1.isSome

/-- How the states of both queries stand to each other: they are the same and have no hit, or both
have a hit and the query for any hit ends. -/
inductive InStep : Search → Search → Prop
  | searching {s : Search} (unmet : s.best = none) : InStep s s
  | decided {nearest any : Search} (found : nearest.best.isSome = true)
      (accepted : any.best.isSome = true) (finished : any.finished = true) : InStep nearest any

/-! ## Scanning -/

theorem scanLanes_isSome {query : Query} {batch : Nat} {hits : List (Fin 4 × TriangleHit)}
    {best : Option Hit} {answer : Option Hit × Bool} (some : best.isSome = true)
    (scanned : t.scanLanes query batch hits best = .ok answer) : answer.1.isSome = true := by
  rcases scanLanes_best scanned with same | ⟨_, _, _, _, _, same⟩
  · rw [same, some]
  · rw [same, Option.isSome_some]

theorem scanBatches_isSome {query : Query} {batches : List Nat} {best : Option Hit}
    {answer : Option Hit × Bool} (some : best.isSome = true)
    (scanned : t.scanBatches query ray maxT batches best = .ok answer) : answer.1.isSome = true := by
  rcases scanBatches_best scanned with same | ⟨_, _, _, _, same⟩
  · rw [same, some]
  · rw [same, Option.isSome_some]

theorem scanLanes_agree {batch : Nat} {hits : List (Fin 4 × TriangleHit)}
    {nearest any : Option Hit × Bool} (scanned : t.scanLanes .closest batch hits none = .ok nearest)
    (scannedAny : t.scanLanes .any batch hits none = .ok any) : ScansAgree nearest any := by
  refine ⟨?_, scanLanes_goesOn scanned, ?_⟩ <;> cases hits with
  | nil =>
      cases scanned
      cases scannedAny
      rfl
  | cons hit hits =>
      -- Without a hit to compare with, the first lane is accepted.
      have accepted : Hit.improves hit.2.distance none = true := rfl
      simp only [scanLanes, if_pos accepted] at scanned scannedAny
      cases there : t.batches[batch]? with
      | none =>
          rw [there] at scanned
          cases scanned
      | some indices =>
          rw [there] at scanned scannedAny
          cases scannedAny
          first
            | exact scanLanes_isSome rfl scanned
            | rfl

theorem scanBatches_agree {batches : List Nat} {nearest any : Option Hit × Bool}
    (scanned : t.scanBatches .closest ray maxT batches none = .ok nearest)
    (scannedAny : t.scanBatches .any ray maxT batches none = .ok any) : ScansAgree nearest any := by
  induction batches with
  | nil =>
      cases scanned
      cases scannedAny
      exact ⟨rfl, rfl, rfl⟩
  | cons batch batches ih =>
      have goesOn := scanBatches_goesOn scanned
      unfold scanBatches at scanned scannedAny
      obtain ⟨hits, tested, rest⟩ := bind_eq_ok.1 scanned
      obtain ⟨⟨next, stop⟩, lanes, rest⟩ := bind_eq_ok.1 rest
      rw [tested, ok_bind] at scannedAny
      obtain ⟨⟨nextAny, stopAny⟩, lanesAny, restAny⟩ := bind_eq_ok.1 scannedAny
      obtain ⟨found, continues, ends⟩ := scanLanes_agree lanes lanesAny
      simp only at found continues ends
      subst continues ends
      cases nextAny with
      | none =>
          rw [Option.isSome_none, Option.isSome_eq_false_iff, Option.isNone_iff_eq_none] at found
          subst found
          exact ih rest restAny
      | some hit =>
          cases restAny
          exact ⟨scanBatches_isSome found rest, goesOn, rfl⟩

/-! ## Visits -/

theorem inStep_of_scans {nearest any : Option Hit × Bool} (agree : ScansAgree nearest any)
    {deferred : List Frame} :
    InStep { current := none, deferred, best := nearest.1, finished := nearest.2 }
      { current := none, deferred, best := any.1, finished := any.2 } := by
  obtain ⟨best, finished⟩ := nearest
  obtain ⟨bestAny, finishedAny⟩ := any
  obtain ⟨found, goesOn, ends⟩ := agree
  simp only at found goesOn ends
  subst goesOn ends
  cases bestAny with
  | none =>
      rw [Option.isSome_none, Option.isSome_eq_false_iff, Option.isNone_iff_eq_none] at found
      subst found
      exact .searching rfl
  | some hit => exact .decided found rfl rfl

theorem visit_isSome {query : Query} {frame : Frame} {deferred : List Frame} {best : Option Hit}
    {next : Search} (some : best.isSome = true)
    (visited : t.visit query ray maxT frame deferred best = .ok next) : next.best.isSome = true := by
  rcases visit_best visited with same | ⟨_, _, _, _, same⟩
  · rw [same, some]
  · rw [same, Option.isSome_some]

theorem visit_inStep {frame : Frame} {deferred : List Frame} {nearest any : Search}
    (visited : t.visit .closest ray maxT frame deferred none = .ok nearest)
    (visitedAny : t.visit .any ray maxT frame deferred none = .ok any) : InStep nearest any := by
  cases visit_eq_ok.1 visited with
  | beyond far =>
      obtain rfl := Except.ok.inj (visitedAny.symm.trans (visit_eq_ok.2 (.beyond far)))
      exact .searching rfl
  | missing near refers =>
      obtain rfl := Except.ok.inj (visitedAny.symm.trans (visit_eq_ok.2 (.missing near refers)))
      exact .searching rfl
  | inner near refers there expanded =>
      obtain rfl := Except.ok.inj
        (visitedAny.symm.trans (visit_eq_ok.2 (.inner near refers there expanded)))
      exact .searching rfl
  | leaf near refers scanned =>
      cases visit_eq_ok.1 visitedAny with
      | beyond far => exact absurd far near
      | missing _ refersAny => cases refers.symm.trans refersAny
      | inner _ refersAny _ _ => cases refers.symm.trans refersAny
      | leaf _ refersAny scannedAny =>
          cases refers.symm.trans refersAny
          exact inStep_of_scans (scanBatches_agree scanned scannedAny)

/-! ## Whole searches -/

theorem Answers.isSome {query : Query} {s : Search} {answer : Option Hit × TraversalStack}
    (answers : t.Answers query ray maxT s answer) (some : s.best.isSome = true) :
    answer.1.isSome = true := by
  obtain ⟨last, isSome, _, same⟩ := answers.keeps (P := fun s => s.best.isSome = true)
    (fun _ _ _ _ some _ visited => visit_isSome some visited) some
  exact same ▸ isSome

theorem Answers.of_finished {query : Query} {s : Search} {answer : Option Hit × TraversalStack}
    (answers : t.Answers query ray maxT s answer) (finished : s.finished = true) :
    answer.1 = s.best := by
  have ended : s.next? = none := by rw [Search.next?, if_pos finished]
  cases answers with
  | ended _ => rfl
  | step pending _ _ => cases ended.symm.trans pending

theorem Answers.inStep {nearest any : Search} {answer answerAny : Option Hit × TraversalStack}
    (answers : t.Answers .closest ray maxT nearest answer)
    (answersAny : t.Answers .any ray maxT any answerAny) (together : InStep nearest any) :
    answerAny.1.isSome = answer.1.isSome := by
  induction answers generalizing any with
  | ended ends =>
      cases together with
      | searching unmet =>
          cases answersAny with
          | ended _ => rfl
          | step pending _ _ => cases ends.symm.trans pending
      | decided found accepted finished => rw [answersAny.of_finished finished, accepted, found]
  | step pending visited rest ih =>
      cases together with
      | searching unmet =>
          cases answersAny with
          | ended ends => cases ends.symm.trans pending
          | step pendingAny visitedAny restAny =>
              cases pending.symm.trans pendingAny
              rw [unmet] at visited visitedAny
              exact ih restAny (visit_inStep visited visitedAny)
      | decided found accepted finished =>
          rw [answersAny.of_finished finished, accepted,
            (Answers.step pending visited rest).isSome found]

theorem search_inStep {stack stackAny rest restAny : TraversalStack} {best bestAny : Option Hit}
    (found : t.search .closest ray maxT stack = .ok (best, rest))
    (foundAny : t.search .any ray maxT stackAny = .ok (bestAny, restAny)) :
    bestAny.isSome = best.isSome := by
  unfold search at found foundAny
  cases meets : ray.clip? t.bounds ray.minT maxT with
  | none =>
      rw [meets] at found foundAny
      cases found
      cases foundAny
      rfl
  | some interval =>
      rw [meets] at found foundAny
      exact (answers_of_searchFrom found).inStep (answers_of_searchFrom foundAny) (.searching rfl)

/-- In a valid tree a ray has any hit just when it has a nearest one, whatever the boxes are and
whatever the stacks of the two queries held before. -/
theorem anyHit_iff_closestHit? {source : TriangleSource} (cached : t.triangles.size = t.batches.size)
    (valid : t.validate source = .ok ()) (ray : Ray) (maxT : Float32)
    (stack stackAny : TraversalStack) :
    ∃ best rest any restAny, t.closestHit? ray maxT stack = .ok (best, rest) ∧
      t.anyHit ray maxT stackAny = .ok (any, restAny) ∧ (any = true ↔ ∃ hit, best = some hit) := by
  obtain ⟨_, root, shaped⟩ := ((settles_validate t source).ok_iff ()).1 valid
  obtain ⟨⟨best, rest⟩, found⟩ := @search_ok t .closest ray maxT source root shaped cached stack
  obtain ⟨⟨bestAny, restAny⟩, foundAny⟩ :=
    @search_ok t .any ray maxT source root shaped cached stackAny
  refine ⟨best, rest, bestAny.isSome, restAny, found, ?_, ?_⟩
  · rw [anyHit, foundAny]
    rfl
  · rw [search_inStep found foundAny, Option.isSome_iff_exists]

/-- The query for any hit ends at the highest floor. What it leaves on the stack the other query drops first. -/
theorem anyHit_iff_closestHit?_tower :
    tower.triangles.size = tower.batches.size ∧ tower.validate floors = .ok () ∧
      ∃ hit rest restAny, tower.closestHit? downward infinity {} = .ok (some hit, rest) ∧
        tower.anyHit downward infinity {} = .ok (true, restAny) ∧
          rest.frames.length = 0 ∧ restAny.frames.length = 2 := by
  have cached : tower.triangles.size = tower.batches.size := by decide +kernel
  have valid : tower.validate floors = .ok () := by decide +kernel
  obtain ⟨best, rest, any, restAny, found, foundAny, iff⟩ :=
    anyHit_iff_closestHit? cached valid downward infinity {} {}
  obtain ⟨_, again, empty⟩ := exists_ok_of_any (tower.closestHit? downward infinity {})
    (fun answer => decide (answer.2.frames.length = 0)) (by decide +kernel)
  obtain ⟨_, againAny, left⟩ := exists_ok_of_any (tower.anyHit downward infinity {})
    (fun answer => answer.1 && decide (answer.2.frames.length = 2)) (by decide +kernel)
  cases again.symm.trans found
  cases againAny.symm.trans foundAny
  obtain ⟨isHit, left⟩ := Bool.and_eq_true_iff.1 left
  obtain ⟨hit, rfl⟩ := iff.1 isHit
  exact ⟨cached, valid, hit, rest, restAny, found, isHit ▸ foundAny, of_decide_eq_true empty,
    of_decide_eq_true left⟩

end BoxTree.Tree

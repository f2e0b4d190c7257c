import BoxTree.Proofs.Slab
import BoxTree.Proofs.Tree.Hits

/-!
# Pruning

A query drops the children that the ray enters too late. It does not lose a hit by that as long as the
boxes on the way to the triangle admit the distance of the hit: at every time the best hit is at least
as near, or a child on the way to the triangle is at hand or deferred, with an interval that has the
distance in it.
-/

namespace BoxTree
open Scalar

/-- The boxes of the children on the way from a target down to a leaf with a triangle. -/
inductive Tree.Path (t : Tree) (triangle : Nat) : Target → List Box → Prop
  | leaf {range : BatchRange} {batch : Nat} {indices : Batch} (member : batch ∈ range.toList)
      (found : t.batches[batch]? = some indices) (named : triangle ∈ indices.toList) :
      t.Path triangle (.leaf range) []
  | left {index : Nat} {node : Node} {boxes : List Box} (there : t.nodes[index]? = some node)
      (below : t.Path triangle node.left.link.target boxes) :
      t.Path triangle (.inner index) (node.left.box :: boxes)
  | right {index : Nat} {node : Node} {boxes : List Box} (there : t.nodes[index]? = some node)
      (below : t.Path triangle node.right.link.target boxes) :
      t.Path triangle (.inner index) (node.right.box :: boxes)

/-- No triangle of the source has a hit between the limits that is nearer than a distance. -/
def TriangleSource.Nearest (source : TriangleSource) (ray : Ray) (maxT d : Float32) : Prop :=
  ∀ triangle hit, (source.triangle triangle).intersect? ray = some hit →
    ray.minT ≤ hit.distance → hit.distance ≤ maxT → d ≤ hit.distance

namespace Tree

variable {t : Tree} {source : TriangleSource} {ray : Ray} {maxT d : Float32} {triangle : Nat}

/-! ## Paths -/

theorem mem_of_path {target : Target} {s : Subtree} (unfolds : Unfolds t.nodes t.batches target s)
    {boxes : List Box} (path : t.Path triangle target boxes) : triangle ∈ s.triangles := by
  induction path generalizing s with
  | leaf member found named =>
      have refers := unfolds
      cases refers with
      | leaf inside => exact unfolds.mem_triangles _ member _ found _ named
  | left there below ih =>
      cases unfolds with
      | inner there' unfoldsLeft unfoldsRight =>
          cases there.symm.trans there'
          rw [Subtree.triangles_inner, List.mem_append]
          exact .inl (ih unfoldsLeft)
  | right there below ih =>
      cases unfolds with
      | inner there' unfoldsLeft unfoldsRight =>
          cases there.symm.trans there'
          rw [Subtree.triangles_inner, List.mem_append]
          exact .inr (ih unfoldsRight)

theorem path_of_mem {target : Target} {s : Subtree} (unfolds : Unfolds t.nodes t.batches target s)
    (member : triangle ∈ s.triangles) : ∃ boxes, t.Path triangle target boxes := by
  induction unfolds with
  | missing => cases member
  | @leaf range content inside =>
      rw [Subtree.triangles_leaf, mem_stripped, List.mem_flatMap] at member
      obtain ⟨indices, inContent, named⟩ := member
      have image : some indices ∈ range.toList.map (t.batches[·]?) :=
        inside ▸ List.mem_map_of_mem inContent
      obtain ⟨batch, inRange, found⟩ := List.mem_map.1 image
      exact ⟨[], .leaf inRange found named⟩
  | inner there _ _ ihLeft ihRight =>
      rw [Subtree.triangles_inner, List.mem_append] at member
      rcases member with inLeft | inRight
      · obtain ⟨boxes, path⟩ := ihLeft inLeft
        exact ⟨_, .left there path⟩
      · obtain ⟨boxes, path⟩ := ihRight inRight
        exact ⟨_, .right there path⟩

theorem path_unique {target : Target} {s : Subtree} (unfolds : Unfolds t.nodes t.batches target s)
    (nodup : s.triangles.Nodup) {boxes boxes' : List Box} (path : t.Path triangle target boxes)
    (path' : t.Path triangle target boxes') : boxes' = boxes := by
  induction path generalizing s boxes' with
  | leaf _ _ _ => cases path' with | leaf _ _ _ => rfl
  | left there below ih =>
      cases unfolds with
      | inner there' unfoldsLeft unfoldsRight =>
          cases there.symm.trans there'
          rw [Subtree.triangles_inner, List.nodup_append] at nodup
          cases path' with
          | left there' below' =>
              cases there.symm.trans there'
              rw [ih unfoldsLeft nodup.1 below']
          | right there' below' =>
              cases there.symm.trans there'
              exact absurd rfl (nodup.2.2 _ (mem_of_path unfoldsLeft below) _
                (mem_of_path unfoldsRight below'))
  | right there below ih =>
      cases unfolds with
      | inner there' unfoldsLeft unfoldsRight =>
          cases there.symm.trans there'
          rw [Subtree.triangles_inner, List.nodup_append] at nodup
          cases path' with
          | left there' below' =>
              cases there.symm.trans there'
              exact absurd rfl (nodup.2.2 _ (mem_of_path unfoldsLeft below') _
                (mem_of_path unfoldsRight below))
          | right there' below' =>
              cases there.symm.trans there'
              rw [ih unfoldsRight nodup.2.1 below']

/-! ## The best hit -/

def Reached (best : Option Hit) (d : Float32) : Prop := ∃ hit ∈ best, hit.distance ≤ d

def Numeric (best : Option Hit) : Prop := ∀ hit ∈ best, hit.distance.isNaN = false

theorem reached_of_improves {best : Option Hit} {hit : Hit} (improves : Hit.improves hit.distance best = true)
    (reached : Reached best d) : Reached (some hit) d := by
  obtain ⟨old, member, le⟩ := reached
  obtain rfl := Option.mem_def.1 member
  have nearer : hit.distance < old.distance := of_decide_eq_true improves
  rw [lt_iff] at nearer
  rw [le_iff] at le
  exact ⟨hit, rfl, le_iff.2 ⟨nearer.1, le.2.1, by omega⟩⟩

theorem reached_of_not_improves {best : Option Hit} (numeric : Numeric best) (number : d.isNaN = false)
    (kept : ¬Hit.improves d best = true) : Reached best d := by
  cases best with
  | none => exact absurd rfl kept
  | some old =>
      have later : ¬d < old.distance := fun nearer => kept (decide_eq_true nearer)
      exact ⟨old, rfl, (not_lt_iff number (numeric old rfl)).1 later⟩

structure Scans (best : Option Hit) (distances : Set Float32) (best' : Option Hit) : Prop where
  numeric : Numeric best'
  keeps : ∀ d, Reached best d → Reached best' d
  reaches : ∀ d ∈ distances, Reached best' d

def distances (hits : List (Fin 4 × TriangleHit)) : Set Float32 := {d | ∃ hit ∈ hits, hit.2.distance = d}

theorem forall_mem_distances_cons {first : Fin 4 × TriangleHit} {hits : List (Fin 4 × TriangleHit)}
    {P : Float32 → Prop} :
    (∀ d ∈ distances (first :: hits), P d) ↔ P first.2.distance ∧ ∀ d ∈ distances hits, P d := by
  simp only [distances, Set.mem_ofPred_eq, List.mem_cons, exists_eq_or_imp, or_imp, forall_and,
    forall_eq']

theorem scanLanes_scans {batch : Nat} {hits : List (Fin 4 × TriangleHit)} {best : Option Hit}
    {answer : Option Hit × Bool} (numeric : Numeric best)
    (numbers : ∀ d ∈ distances hits, d.isNaN = false)
    (scanned : t.scanLanes .closest batch hits best = .ok answer) :
    Scans best (distances hits) answer.1 := by
  induction hits generalizing best with
  | nil =>
      cases scanned
      exact ⟨numeric, fun _ reached => reached, fun _ ⟨_, member, _⟩ => nomatch member⟩
  | cons first hits ih =>
      obtain ⟨lane, hit⟩ := first
      rw [forall_mem_distances_cons] at numbers
      unfold scanLanes at scanned
      by_cases improves : Hit.improves hit.distance best = true
      · rw [if_pos improves] at scanned
        cases there : t.batches[batch]? with
        | none =>
            rw [there] at scanned
            cases scanned
        | some indices =>
            simp only [there] at scanned
            have found : Numeric (some ⟨hit.distance, hit.uv, indices.get lane⟩) := by
              intro other member
              obtain rfl := Option.some.inj member
              exact numbers.1
            obtain ⟨numeric', keeps, reaches⟩ := ih found numbers.2 scanned
            have here : Reached (some ⟨hit.distance, hit.uv, indices.get lane⟩) hit.distance :=
              ⟨_, rfl, le_iff.2 ⟨numbers.1, numbers.1, le_refl _⟩⟩
            exact ⟨numeric', fun d reached => keeps d (reached_of_improves improves reached),
              forall_mem_distances_cons.2 ⟨keeps _ here, reaches⟩⟩
      · rw [if_neg improves] at scanned
        obtain ⟨numeric', keeps, reaches⟩ := ih numeric numbers.2 scanned
        have here := reached_of_not_improves numeric numbers.1 improves
        exact ⟨numeric', keeps, forall_mem_distances_cons.2 ⟨keeps _ here, reaches⟩⟩

theorem numbers_batchHits {batch : Nat} {hits : List (Fin 4 × TriangleHit)}
    (tested : t.batchHits ray maxT batch = .ok hits) : ∀ d ∈ distances hits, d.isNaN = false := by
  rintro _ ⟨⟨lane, hit⟩, member, rfl⟩
  obtain ⟨_, _, reported⟩ := batchHits_eq_ok tested
  exact (le_iff.1 ((reported lane hit).1 member).2.1).2.1

theorem scanBatches_scans {batches : List Nat} {best : Option Hit} {answer : Option Hit × Bool}
    (numeric : Numeric best) (scanned : t.scanBatches .closest ray maxT batches best = .ok answer) :
    Scans best {d | ∃ batch ∈ batches, ∃ hits, t.batchHits ray maxT batch = .ok hits ∧
      d ∈ distances hits} answer.1 := by
  induction batches generalizing best with
  | nil =>
      cases scanned
      exact ⟨numeric, fun _ reached => reached, fun _ ⟨_, member, _⟩ => nomatch member⟩
  | cons batch batches ih =>
      unfold scanBatches at scanned
      obtain ⟨hits, tested, rest⟩ := bind_eq_ok.1 scanned
      obtain ⟨⟨next, stop⟩, lanes, rest⟩ := bind_eq_ok.1 rest
      obtain rfl : stop = false := scanLanes_goesOn lanes
      obtain ⟨numericNext, keepsNext, reachesNext⟩ :=
        scanLanes_scans numeric (numbers_batchHits tested) lanes
      obtain ⟨numeric', keeps, reaches⟩ := ih numericNext rest
      refine ⟨numeric', fun d reached => keeps d (keepsNext d reached), ?_⟩
      rintro d ⟨other, member, otherHits, otherTested, found⟩
      rcases List.mem_cons.1 member with rfl | later
      · cases tested.symm.trans otherTested
        exact keeps d (reachesNext d found)
      · exact reaches d ⟨other, later, otherHits, otherTested, found⟩

/-! ## Pending children -/

theorem expand_opens {node : Node} {tMin tMax : Float32} {deferred after : List Frame}
    {current : Option Frame} (expanded : expand node ray tMin tMax deferred = .ok (current, after)) :
    (∀ frame ∈ deferred, frame ∈ current.toList ++ after) ∧
      (∀ frame ∈ node.left.frame? (node.clip ray tMin tMax).left, frame ∈ current.toList ++ after) ∧
      ∀ frame ∈ node.right.frame? (node.clip ray tMin tMax).right,
        frame ∈ current.toList ++ after := by
  unfold expand at expanded
  cases left : node.left.frame? (node.clip ray tMin tMax).left <;>
    cases right : node.right.frame? (node.clip ray tMin tMax).right <;>
    simp only [left, right] at expanded
  · cases expanded
    simp
  · cases expanded
    simp +contextual
  · cases expanded
    simp +contextual
  · split at expanded
    · split at expanded <;> cases expanded <;> simp +contextual
    · cases expanded

structure Seeks (t : Tree) (ray : Ray) (triangle : Nat) (d : Float32) (frame : Frame) : Prop where
  way : ∃ boxes, t.Path triangle frame.link.target boxes ∧ ∀ box ∈ boxes, ray.Within box d
  entered : frame.interval.entry ≤ d
  left : d ≤ frame.interval.exit

/-- A query that has a hit at least as near as a distance, or a frame that seeks the triangle. -/
structure Pursues (t : Tree) (ray : Ray) (triangle : Nat) (d : Float32) (s : Search) : Prop where
  goesOn : s.finished = false
  numeric : Numeric s.best
  covers : Reached s.best d ∨ ∃ frame ∈ s.frames, t.Seeks ray triangle d frame

theorem le_limit {frame : Frame} {best : Option Hit} (numeric : Numeric best)
    (left : d ≤ frame.interval.exit) (open_ : ¬Reached best d) : d ≤ frame.limit best := by
  cases best with
  | none => exact left
  | some hit =>
      obtain ⟨numberD, numberExit, _⟩ := le_iff.1 left
      have farther : d < hit.distance := by
        by_contra nearer
        exact open_ ⟨hit, rfl, (not_lt_iff numberD (numeric hit rfl)).1 nearer⟩
      change d ≤ minNum frame.interval.exit hit.distance
      rw [← not_lt_iff (isNaN_minNum _ numberExit) numberD, minNum_lt]
      rintro (before | before)
      · exact (not_lt_iff numberExit numberD).2 left before
      · rw [lt_iff] at before farther
        omega

theorem frame?_of_within {child : Child} {tMin tMax : Float32} (within : ray.Within child.box d)
    (entered : tMin ≤ d) (left : d ≤ tMax) :
    ∃ frame, child.frame? (ray.packedClip child.box tMin tMax) = some frame ∧
      frame.link = child.link ∧ frame.interval.entry ≤ d ∧ d ≤ frame.interval.exit := by
  obtain ⟨entry, exit⟩ := Ray.packedClip_within within entered left
  have nonempty : (ray.packedClip child.box tMin tMax).Nonempty := le_trans_scalar entry exit
  refine ⟨⟨child.link, ray.packedClip child.box tMin tMax⟩, ?_, rfl, entry, exit⟩
  rw [Child.frame?, Interval.nonempty?, if_pos nonempty]
  rfl

theorem next?_of_frames {s : Search} (goesOn : s.finished = false) (some : s.frames ≠ []) :
    s.next? ≠ none := by
  obtain ⟨current, deferred, best, finished⟩ := s
  simp only at goesOn
  subst goesOn
  cases current with
  | some frame => exact nofun
  | none =>
      cases deferred with
      | nil => exact absurd rfl some
      | cons frame deferred => exact nofun

theorem mem_get_toList {α : Type} {v : Lanes α} {a : α} (member : a ∈ v.toList) :
    ∃ lane, v.get lane = a := by
  simp only [Lanes.toList, List.mem_cons, List.not_mem_nil, or_false] at member
  rcases member with rfl | rfl | rfl | rfl
  · exact ⟨0, rfl⟩
  · exact ⟨1, rfl⟩
  · exact ⟨2, rfl⟩
  · exact ⟨3, rfl⟩

theorem reports_of_named (caches : t.Caches source) {batch : Nat} {indices : Batch} {facet : Facet}
    {hit : TriangleHit} (found : t.batches[batch]? = some indices) (named : triangle ∈ indices.toList)
    (known : source.triangle? triangle = some facet) (met : facet.intersect? ray = some hit)
    (near : ray.minT ≤ hit.distance) (far : hit.distance ≤ maxT)
    {hits : List (Fin 4 × TriangleHit)} (tested : t.batchHits ray maxT batch = .ok hits) :
    hit.distance ∈ distances hits := by
  obtain ⟨triangles, cached, reported⟩ := batchHits_eq_ok tested
  obtain ⟨indices', found', gathered⟩ := caches batch triangles cached
  obtain rfl := Option.some.inj (found.symm.trans found')
  obtain ⟨facets, mapped, rfl⟩ := gather_eq_ok.1 gathered
  obtain ⟨lane, rfl⟩ := mem_get_toList named
  obtain rfl := Option.some.inj (known.symm.trans (Lanes.get_of_mapM? mapped lane))
  exact ⟨(lane, hit), (reported lane hit).2 ⟨TriangleBatch.mem_intersect.2 met, near, far⟩, rfl⟩

theorem visit_keeps {frame : Frame} {deferred : List Frame} {best : Option Hit} {next : Search}
    (numeric : Numeric best) (visited : t.visit .closest ray maxT frame deferred best = .ok next) :
    next.finished = false ∧ Numeric next.best ∧ (∀ d, Reached best d → Reached next.best d) ∧
      ∀ waiting ∈ deferred, waiting ∈ next.frames := by
  cases visit_eq_ok.1 visited with
  | beyond _ => exact ⟨rfl, numeric, fun _ reached => reached, fun _ member => member⟩
  | missing _ _ => exact ⟨rfl, numeric, fun _ reached => reached, fun _ member => member⟩
  | inner _ _ _ expanded =>
      exact ⟨rfl, numeric, fun _ reached => reached, (expand_opens expanded).1⟩
  | leaf _ _ scanned =>
      have scans := scanBatches_scans numeric scanned
      exact ⟨scanBatches_goesOn scanned, scans.numeric, scans.keeps, fun _ member => member⟩

theorem visit_seeks (cached : t.triangles.size = t.batches.size) (caches : t.Caches source)
    {facet : Facet} {hit : TriangleHit} (known : source.triangle? triangle = some facet)
    (met : facet.intersect? ray = some hit) (near : ray.minT ≤ hit.distance)
    (far : hit.distance ≤ maxT) {frame : Frame} {deferred : List Frame} {best : Option Hit}
    {next : Search} (numeric : Numeric best) (seeks : t.Seeks ray triangle hit.distance frame)
    (visited : t.visit .closest ray maxT frame deferred best = .ok next) :
    Reached next.best hit.distance ∨
      ∃ frame ∈ next.frames, t.Seeks ray triangle hit.distance frame := by
  obtain ⟨⟨boxes, path, within⟩, entered, left⟩ := seeks
  by_cases reached : Reached best hit.distance
  · exact .inl ((visit_keeps numeric visited).2.2.1 _ reached)
  · have limit := le_limit numeric left reached
    cases visit_eq_ok.1 visited with
    | beyond later =>
        have := (lt_iff.1 later).2.2
        have := (le_iff.1 (le_trans_scalar entered limit)).2.2
        omega
    | missing _ refers =>
        rw [refers] at path
        cases path
    | inner _ refers there expanded =>
        rw [refers] at path
        obtain ⟨_, opensLeft, opensRight⟩ := expand_opens expanded
        rw [Ray.clip_eq] at opensLeft opensRight
        cases path with
        | left there' below =>
            cases there.symm.trans there'
            rw [List.forall_mem_cons] at within
            obtain ⟨child, opened, link, entry, exit⟩ := frame?_of_within within.1 entered limit
            exact .inr ⟨child, opensLeft child opened, ⟨_, link ▸ below, within.2⟩, entry, exit⟩
        | right there' below =>
            cases there.symm.trans there'
            rw [List.forall_mem_cons] at within
            obtain ⟨child, opened, link, entry, exit⟩ := frame?_of_within within.1 entered limit
            exact .inr ⟨child, opensRight child opened, ⟨_, link ▸ below, within.2⟩, entry, exit⟩
    | leaf _ refers scanned =>
        rw [refers] at path
        cases path with
        | @leaf _ batch _ member found named =>
            obtain ⟨there, _⟩ := Array.getElem?_eq_some_iff.1 found
            obtain ⟨hits, tested⟩ := @batchHits_ok t ray maxT cached _ there
            have reports := reports_of_named caches found named known met near far tested
            exact .inl ((scanBatches_scans numeric scanned).reaches _
              ⟨batch, member, hits, tested, reports⟩)

/-! ## Whole searches -/

theorem pursues_visit (cached : t.triangles.size = t.batches.size) (caches : t.Caches source)
    {facet : Facet} {hit : TriangleHit} (known : source.triangle? triangle = some facet)
    (met : facet.intersect? ray = some hit) (near : ray.minT ≤ hit.distance)
    (far : hit.distance ≤ maxT) {s next : Search} {frame : Frame} {deferred : List Frame}
    (pursues : t.Pursues ray triangle hit.distance s) (pending : s.next? = some (frame, deferred))
    (visited : t.visit .closest ray maxT frame deferred s.best = .ok next) :
    t.Pursues ray triangle hit.distance next := by
  obtain ⟨_, numeric, covers⟩ := pursues
  obtain ⟨frames, _⟩ := Search.frames_of_next? pending
  obtain ⟨goesOn, numeric', keeps, waits⟩ := visit_keeps numeric visited
  refine ⟨goesOn, numeric', ?_⟩
  rcases covers with reached | ⟨seeker, member, seeks⟩
  · exact .inl (keeps _ reached)
  · rw [frames] at member
    rcases List.mem_cons.1 member with rfl | later
    · exact visit_seeks cached caches known met near far numeric seeks visited
    · exact .inr ⟨seeker, waits seeker later, seeks⟩

theorem search_reaches (cached : t.triangles.size = t.batches.size) (caches : t.Caches source)
    {facet : Facet} {hit : TriangleHit} (known : source.triangle? triangle = some facet)
    (met : facet.intersect? ray = some hit) (near : ray.minT ≤ hit.distance)
    (far : hit.distance ≤ maxT) {boxes : List Box} (path : t.Path triangle rootLink.target boxes)
    (admitted : ∀ box ∈ t.bounds :: boxes, ray.Admits box maxT hit.distance)
    {stack rest : TraversalStack} {best : Option Hit}
    (found : t.search .closest ray maxT stack = .ok (best, rest)) : Reached best hit.distance := by
  rw [List.forall_mem_cons] at admitted
  obtain ⟨⟨interval, clipped, entered, left⟩, below⟩ := admitted
  unfold search at found
  rw [clipped] at found
  have start : t.Pursues ray triangle hit.distance (start interval stack) :=
    ⟨rfl, fun hit member => absurd member (Option.not_mem_none hit), .inr ⟨_, List.mem_cons_self,
      ⟨boxes, path, fun box member => Ray.within_of_admits far (below box member)⟩, entered, left⟩⟩
  obtain ⟨last, pursues, ended, rfl⟩ := (answers_of_searchFrom found).keeps
    (fun _ _ _ _ pursues pending visited =>
      pursues_visit cached caches known met near far pursues pending visited) start
  rcases pursues.covers with reached | ⟨frame, member, _⟩
  · exact reached
  · exact absurd ended (next?_of_frames pursues.goesOn (List.ne_nil_of_mem member))

/-! ## Built trees -/

variable {select : Binned.Selection source.count} {s : Settings}

/-- In a built tree one way leads to each triangle. Where the boxes on it and the box of the tree admit
the distance of a hit of the triangle, the query for the nearest hit reports one that is no farther, and
one at just this distance if no triangle has a nearer hit. -/
theorem closestHit?_of_admitted (lawful : select.Lawful)
    (built : buildSelecting source select s = .ok t) (triangle : Fin source.count) :
    ∃ boxes, t.Path triangle rootLink.target boxes ∧
      (∀ other, t.Path triangle rootLink.target other → other = boxes) ∧
      ∀ ray maxT stack hit, (source.triangle triangle).intersect? ray = some hit →
        ray.minT ≤ hit.distance → hit.distance ≤ maxT →
        (∀ box ∈ t.bounds :: boxes, ray.Admits box maxT hit.distance) →
        ∃ best rest, t.closestHit? ray maxT stack = .ok (some best, rest) ∧
          best.distance ≤ hit.distance ∧
          (source.Nearest ray maxT hit.distance → (best.distance == hit.distance) = true) := by
  obtain ⟨⟨_, root, shaped⟩, cached, caches, _⟩ := built_ok lawful built
  have refers : rootLink.target = .inner 0 := by decide
  have unfolds : Unfolds t.nodes t.batches rootLink.target root := refers ▸ shaped.unfolds
  have member : triangle.val ∈ root.triangles := by
    rw [shaped.triangles.mem_iff, List.mem_range]
    exact triangle.isLt
  have nodup : root.triangles.Nodup := shaped.triangles.nodup_iff.2 List.nodup_range
  obtain ⟨boxes, path⟩ := path_of_mem unfolds member
  refine ⟨boxes, path, fun other path' => path_unique unfolds nodup path path', ?_⟩
  intro ray maxT stack hit met near far admitted
  obtain ⟨⟨best, rest⟩, found⟩ := @search_ok t .closest ray maxT source root shaped cached stack
  have known : source.triangle? triangle = some (source.triangle triangle) := by
    rw [TriangleSource.triangle?, dif_pos triangle.isLt]
  obtain ⟨nearest, isBest, le⟩ :=
    search_reaches cached caches known met near far path admitted found
  obtain rfl := Option.mem_def.1 isBest
  refine ⟨nearest, rest, found, le, fun least => ?_⟩
  have genuine : ∀ hit ∈ some nearest, hit.Genuine source ray maxT :=
    search_best (fun _ _ reports => genuine_of_reports caches reports) found
  obtain ⟨index, same, after, before⟩ := genuine nearest rfl
  have ge := least _ _ same after before
  rw [le_iff_key] at le ge
  rw [beq_iff_key]
  exact ⟨le.1, le.2.1, le_antisymm le.2.2 ge.2.2⟩

/-- The way to the highest floor leads through two nodes. No other floor is nearer from above. -/
theorem closestHit?_of_admitted_floors :
    ∃ t hit best rest, buildSelecting floors Binned.Selection.sorted (leafEach .binned) = .ok t ∧
      t.Path 2 rootLink.target [floors.boundsOf [1, 2], floors.boundsOf [2]] ∧
        (floorAt 20).intersect? downward = some hit ∧
          t.closestHit? downward infinity {} = .ok (some best, rest) ∧
            (best.distance == hit.distance) = true := by
  obtain ⟨t, built, shape⟩ := exists_ok_of_any
    (buildSelecting floors Binned.Selection.sorted (leafEach .binned))
    (fun t => decide (t.bounds = floors.boundsOf [0, 1, 2]) &&
      decide (t.batches[2]? = some (Lanes.replicate 2)) &&
      (t.nodes[0]?.any fun (node : Node) => decide (node.right.box = floors.boundsOf [1, 2]) &&
        decide (node.right.link.target = .inner 1)) &&
      t.nodes[1]?.any fun (node : Node) => decide (node.right.box = floors.boundsOf [2]) &&
        decide (node.right.link.target = .leaf ⟨2, 1⟩)) (by decide +kernel)
  simp only [Bool.and_eq_true, decide_eq_true_eq, Option.any_eq_true] at shape
  obtain ⟨⟨⟨bounds, batch⟩, root, top, rootBox, inner⟩, node, there, box, leaf⟩ := shape
  have path : t.Path 2 rootLink.target [floors.boundsOf [1, 2], floors.boundsOf [2]] := by
    rw [← rootBox, ← box, (by decide : rootLink.target = .inner 0)]
    exact .right top (inner ▸ .right there (leaf ▸ .leaf (by decide) batch (by decide)))
  have crossed := (Option.any_eq_true
    (fun (hit : TriangleHit) => decide (downward.minT ≤ hit.distance) && decide (hit.distance ≤ infinity) &&
      ([floors.boundsOf [0, 1, 2], floors.boundsOf [1, 2], floors.boundsOf [2]].all fun box =>
        (downward.clip? box downward.minT infinity).any fun (interval : Interval) =>
          decide (interval.entry ≤ hit.distance) && decide (hit.distance ≤ interval.exit)) &&
      (List.finRange 3).all fun i =>
        ((floors.triangle i).intersect? downward).all fun other => decide (hit.distance ≤ other.distance))
    ((floorAt 20).intersect? downward)).1 (by decide +kernel)
  obtain ⟨hit, met, limits⟩ := crossed
  simp only [Bool.and_eq_true, decide_eq_true_eq, Option.any_eq_true, List.all_eq_true] at limits
  obtain ⟨⟨⟨near, far⟩, admits⟩, nearest⟩ := limits
  obtain ⟨boxes, _, unique, reaches⟩ :=
    closestHit?_of_admitted Binned.Selection.sorted_lawful built ⟨2, by decide⟩
  obtain rfl := unique _ path
  have third : floors.triangle ⟨2, by decide⟩ = floorAt 20 := rfl
  rw [third] at reaches
  rw [← bounds] at admits
  obtain ⟨best, rest, found, _, same⟩ := reaches downward infinity {} hit met near far admits
  refine ⟨t, hit, best, rest, built, path, met, found, same fun i other metOther _ _ => ?_⟩
  have least := nearest i (List.mem_finRange i)
  rw [metOther] at least
  exact of_decide_eq_true least

end Tree

end BoxTree

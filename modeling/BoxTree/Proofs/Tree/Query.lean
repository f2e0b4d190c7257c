import BoxTree.Proofs.Except
import BoxTree.Proofs.Tree.Validity
import BoxTree.Tree.Query

/-!
# Queries on valid trees

Every child that a query has at hand or has deferred is the root of a subtree, and these subtrees
have no node and no batch in common with each other or with what was looked at before. A query of a
valid tree therefore comes to its end, and its stack never holds more than one child for each level.
-/

namespace BoxTree
open Scalar

def Target.nodes : Target → List Nat
  | .inner node => [node]
  | _ => []

def Target.batches : Target → List Nat
  | .leaf range => range.toList
  | _ => []

/-- The states that a query gets to from its first one, each with the targets of the children that
were looked at on the way. -/
inductive Tree.Reaches (t : Tree) (query : Query) (ray : Ray) (maxT : Float32) (first : Search) :
    Search → List Target → Prop
  | start : t.Reaches query ray maxT first first []
  | step {s next : Search} {looked : List Target} {frame : Frame} {deferred : List Frame}
      (reaches : t.Reaches query ray maxT first s looked) (pending : s.next? = some (frame, deferred))
      (visited : t.visit query ray maxT frame deferred s.best = .ok next) :
      t.Reaches query ray maxT first next (looked ++ [frame.link.target])

namespace Subtree

def parts : Subtree → List Subtree
  | inner _ _ left _ right => [left, right]
  | _ => []

def size : Subtree → Nat
  | inner _ _ left _ right => left.size + right.size + 1
  | _ => 1

theorem height_parts {s child : Subtree} (member : child ∈ s.parts) : child.height < s.height := by
  cases s with
  | missing => cases member
  | leaf range content => cases member
  | inner index leftBox left rightBox right =>
      rw [height]
      rcases List.mem_pair.1 member with rfl | rfl <;> omega

theorem size_eq (s : Subtree) : s.size = (s.parts.map size).sum + 1 := by
  cases s <;> simp [size, parts]

theorem size_le (s : Subtree) : s.size ≤ 2 * s.nodes.length + 1 := by
  induction s with
  | missing => exact Nat.le_refl 1
  | leaf range content => exact Nat.le_refl 1
  | inner index leftBox left rightBox right ihLeft ihRight =>
      simp only [size, nodes, List.length_cons, List.length_append]
      omega

end Subtree

theorem nodes_eq_of_unfolds {nodes : Array Node} {batches : Array Batch} {target : Target}
    {s : Subtree} (unfolds : Unfolds nodes batches target s) :
    s.nodes = target.nodes ++ s.parts.flatMap Subtree.nodes := by
  cases unfolds <;> simp [Subtree.nodes, Subtree.parts, Target.nodes]

theorem batches_eq_of_unfolds {nodes : Array Node} {batches : Array Batch} {target : Target}
    {s : Subtree} (unfolds : Unfolds nodes batches target s) :
    s.batches = target.batches ++ s.parts.flatMap Subtree.batches := by
  cases unfolds <;> simp [Subtree.batches, Subtree.parts, Target.batches]

theorem subperm_flatMap {α β : Type} (f : α → List β) {xs ys : List α} (part : xs.Subperm ys) :
    (xs.flatMap f).Subperm (ys.flatMap f) := by
  obtain ⟨zs, perm, sublist⟩ := part
  exact ⟨zs.flatMap f, perm.flatMap_right f, sublist.flatMap f⟩

theorem subperm_map {α β : Type} (f : α → β) {xs ys : List α} (part : xs.Subperm ys) :
    (xs.map f).Subperm (ys.map f) := by
  obtain ⟨zs, perm, sublist⟩ := part
  exact ⟨zs.map f, perm.map f, sublist.map f⟩

theorem sum_le_of_subperm {xs ys : List Nat} (part : xs.Subperm ys) : xs.sum ≤ ys.sum := by
  obtain ⟨zs, perm, sublist⟩ := part
  rw [← perm.sum_eq]
  exact sublist.sum_le_sum fun _ _ => Nat.zero_le _

theorem nodup_of_subperm {α : Type} {xs ys : List α} (part : xs.Subperm ys) (nodup : ys.Nodup) :
    xs.Nodup := by
  obtain ⟨zs, perm, sublist⟩ := part
  exact perm.nodup_iff.1 (nodup.sublist sublist)

/-! ## Pending subtrees -/

inductive Pending (t : Tree) : List Frame → List Subtree → Prop
  | nil : Pending t [] []
  | cons {frame : Frame} {frames : List Frame} {s : Subtree} {rest : List Subtree}
      (unfolds : Unfolds t.nodes t.batches frame.link.target s)
      (room : s.height + frames.length ≤ maxDepth + 1) (pending : Pending t frames rest) :
      Pending t (frame :: frames) (s :: rest)

def Search.frames (s : Search) : List Frame := s.current.toList ++ s.deferred

structure Invariant (t : Tree) (s : Search) (looked : List Target) (rest : List Subtree) : Prop where
  pending : Pending t s.frames rest
  room : s.deferred.length ≤ maxDepth + 1
  nodes : (looked.flatMap Target.nodes ++ rest.flatMap Subtree.nodes).Subperm
    (List.range t.nodes.size)
  batches : (looked.flatMap Target.batches ++ rest.flatMap Subtree.batches).Subperm
    (List.range t.batches.size)

theorem Search.frames_of_next? {s : Search} {frame : Frame} {deferred : List Frame}
    (pending : s.next? = some (frame, deferred)) :
    s.frames = frame :: deferred ∧ deferred.length ≤ s.deferred.length := by
  obtain ⟨current, waiting, best, finished⟩ := s
  cases finished with
  | true => cases pending
  | false =>
      cases current with
      | some first =>
          cases pending
          exact ⟨rfl, Nat.le_refl _⟩
      | none =>
          cases waiting with
          | nil => cases pending
          | cons first waiting =>
              cases pending
              exact ⟨rfl, Nat.le_succ _⟩

namespace Tree

variable {t : Tree} {query : Query} {ray : Ray} {maxT : Float32}

/-! ## Scanning -/

theorem scanLanes_ok {batch : Nat} (there : batch < t.batches.size)
    (hits : List (Fin 4 × TriangleHit)) (best : Option Hit) :
    ∃ answer, t.scanLanes query batch hits best = .ok answer := by
  induction hits generalizing best with
  | nil => exact ⟨_, rfl⟩
  | cons hit hits ih =>
      obtain ⟨lane, hit⟩ := hit
      unfold scanLanes
      split
      · rw [Array.getElem?_eq_getElem there]
        cases query with
        | any => exact ⟨_, rfl⟩
        | closest => exact ih _
      · exact ih best

theorem batchHits_ok (cached : t.triangles.size = t.batches.size) {batch : Nat}
    (there : batch < t.batches.size) : ∃ hits, t.batchHits ray maxT batch = .ok hits := by
  have gathered : batch < t.triangles.size := cached ▸ there
  rw [batchHits, Array.getElem?_eq_getElem gathered]
  exact ⟨_, rfl⟩

theorem scanBatches_ok (cached : t.triangles.size = t.batches.size) (batches : List Nat)
    (there : ∀ batch ∈ batches, batch < t.batches.size) (best : Option Hit) :
    ∃ answer, t.scanBatches query ray maxT batches best = .ok answer := by
  induction batches generalizing best with
  | nil => exact ⟨_, rfl⟩
  | cons batch batches ih =>
      have first := there batch List.mem_cons_self
      have rest : ∀ batch ∈ batches, batch < t.batches.size := fun other member =>
        there other (List.mem_cons_of_mem batch member)
      obtain ⟨hits, tested⟩ := @batchHits_ok t ray maxT cached _ first
      obtain ⟨⟨found, done⟩, scanned⟩ := @scanLanes_ok t query batch first hits best
      simp only [scanBatches, tested, scanned, ok_bind]
      cases done with
      | true => exact ⟨_, rfl⟩
      | false => exact ih rest found

/-! ## Expanding -/

theorem frame?_link {child : Child} {interval : Interval} {frame : Frame}
    (given : child.frame? interval = some frame) : frame.link = child.link := by
  obtain ⟨_, _, rfl⟩ := Option.map_eq_some_iff.1 given
  rfl

theorem expand_ok (node : Node) (ray : Ray) (tMin tMax : Float32) {deferred : List Frame}
    (room : deferred.length ≤ maxDepth) :
    ∃ current deferred', expand node ray tMin tMax deferred = .ok (current, deferred') ∧
      deferred'.length ≤ maxDepth + 1 ∧ ∃ opened : List Frame, ∃ sides : List Side,
        current.toList ++ deferred' = opened ++ deferred ∧ sides.Nodup ∧
          opened.map Frame.link = sides.map fun side => (node.child side).link := by
  unfold expand
  cases left : node.left.frame? (node.clip ray tMin tMax).left with
  | none =>
      cases right : node.right.frame? (node.clip ray tMin tMax).right with
      | none =>
          simp only [left, right]
          exact ⟨none, deferred, rfl, by omega, [], [], rfl, List.nodup_nil, rfl⟩
      | some frame =>
          simp only [left, right]
          refine ⟨some frame, deferred, rfl, by omega, [frame], [.right], rfl, by decide, ?_⟩
          simp [frame?_link right, Node.child]
  | some frame =>
      cases right : node.right.frame? (node.clip ray tMin tMax).right with
      | none =>
          simp only [left, right]
          refine ⟨some frame, deferred, rfl, by omega, [frame], [.left], rfl, by decide, ?_⟩
          simp [frame?_link left, Node.child]
      | some other =>
          simp only [left, right, if_pos (Nat.lt_succ_of_le room)]
          by_cases nearer : other.interval.entry < frame.interval.entry
          · simp only [if_pos nearer]
            refine ⟨some other, frame :: deferred, rfl, Nat.succ_le_succ room, [other, frame],
              [.right, .left], rfl, by decide, ?_⟩
            simp [frame?_link left, frame?_link right, Node.child]
          · simp only [if_neg nearer]
            refine ⟨some frame, other :: deferred, rfl, Nat.succ_le_succ room, [frame, other],
              [.left, .right], rfl, by decide, ?_⟩
            simp [frame?_link left, frame?_link right, Node.child]

/-! ## One step -/

theorem visit_ok (cached : t.triangles.size = t.batches.size) {frame : Frame} {s : Subtree}
    (unfolds : Unfolds t.nodes t.batches frame.link.target s) {deferred : List Frame}
    (room : s.height + deferred.length ≤ maxDepth + 1) (best : Option Hit) :
    ∃ next, t.visit query ray maxT frame deferred best = .ok next ∧
      next.deferred.length ≤ maxDepth + 1 ∧
      ∃ opened parts, next.frames = opened ++ deferred ∧ parts.Subperm s.parts ∧
        List.Forall₂ (fun frame s => Unfolds t.nodes t.batches frame.link.target s) opened parts := by
  have fits : deferred.length ≤ maxDepth + 1 := by omega
  unfold visit
  by_cases beyond : frame.interval.entry > frame.limit best
  · simp only [if_pos beyond]
    exact ⟨_, rfl, fits, [], [], rfl, List.nil_subperm, .nil⟩
  · simp only [if_neg beyond]
    cases refers : frame.link.target with
    | missing => exact ⟨_, rfl, fits, [], [], rfl, List.nil_subperm, .nil⟩
    | inner index =>
        rw [refers] at unfolds
        cases unfolds with
        | @inner _ node left right there unfoldsLeft unfoldsRight =>
            have space : deferred.length ≤ maxDepth := by
              rw [Subtree.height] at room
              omega
            obtain ⟨current, deferred', expanded, fits, opened, sides, frames, nodup, links⟩ :=
              expand_ok node ray frame.interval.entry (frame.limit best) space
            simp only [there, expanded, ok_bind]
            refine ⟨_, rfl, fits, opened, sides.map (fun side => Sides.get ⟨left, right⟩ side), frames, ?_, ?_⟩
            · have all : sides.Subperm Side.all := nodup.subperm fun side _ => by cases side <;> decide
              exact subperm_map _ all
            · have paired : List.Forall₂ Eq (opened.map Frame.link)
                  (sides.map fun side => (node.child side).link) := List.forall₂_eq_eq_eq ▸ links
              rw [List.forall₂_map_left_iff, List.forall₂_map_right_iff] at paired
              rw [List.forall₂_map_right_iff]
              refine paired.imp fun frame side same => ?_
              rw [same]
              cases side with
              | left => exact unfoldsLeft
              | right => exact unfoldsRight
    | leaf range =>
        rw [refers] at unfolds
        cases unfolds with
        | leaf inside =>
            have there : ∀ batch ∈ range.toList, batch < t.batches.size := fun batch member =>
              BatchRange.lt_size_of_map inside member
            obtain ⟨⟨best, finished⟩, scanned⟩ := @scanBatches_ok t query ray maxT cached _ there best
            simp only [scanned, ok_bind]
            exact ⟨_, rfl, fits, [], [], rfl, List.nil_subperm, .nil⟩

theorem height_lt_of_subperm {s : Subtree} {parts : List Subtree} (part : parts.Subperm s.parts) :
    (∀ child ∈ parts, child.height < s.height) ∧ parts.length ≤ 2 := by
  refine ⟨fun child member => Subtree.height_parts (part.subset member), ?_⟩
  refine part.length_le.trans ?_
  cases s <;> simp [Subtree.parts]

theorem pending_append {opened deferred : List Frame} {parts rest : List Subtree}
    (unfolds : List.Forall₂ (fun frame s => Unfolds t.nodes t.batches frame.link.target s) opened parts)
    (low : ∀ child ∈ parts, child.height + (opened.length - 1) + deferred.length ≤ maxDepth + 1)
    (pending : Pending t deferred rest) : Pending t (opened ++ deferred) (parts ++ rest) := by
  induction unfolds with
  | nil => exact pending
  | @cons frame s opened parts first others ih =>
      have room := low s List.mem_cons_self
      refine .cons first ?_ (ih fun child member => ?_)
      · have length : (opened ++ deferred).length = opened.length + deferred.length :=
          List.length_append
        rw [List.length_cons] at room
        exact length ▸ (by omega)
      · have lower := low child (List.mem_cons_of_mem s member)
        rw [List.length_cons] at lower
        omega

theorem step_ok (cached : t.triangles.size = t.batches.size) {s : Search} {looked : List Target}
    {rest : List Subtree} (inv : Invariant t s looked rest) {frame : Frame} {deferred : List Frame}
    (pending : s.next? = some (frame, deferred)) :
    ∃ next rest', t.visit query ray maxT frame deferred s.best = .ok next ∧
      Invariant t next (looked ++ [frame.link.target]) rest' ∧
      (rest'.map Subtree.size).sum < (rest.map Subtree.size).sum := by
  obtain ⟨frames, shorter⟩ := Search.frames_of_next? pending
  have roots := inv.pending
  rw [frames] at roots
  cases roots with
  | @cons _ _ sub rest unfolds room others =>
      obtain ⟨next, visited, fits, opened, parts, opens, part, unfoldsParts⟩ :=
        visit_ok cached unfolds room s.best
      obtain ⟨low, few⟩ := height_lt_of_subperm part
      have sameLength := unfoldsParts.length_eq
      -- The root moves from what is pending to what was looked at, and only its parts come back.
      have spread (f : Subtree → List Nat) (g : Target → List Nat)
          (split : f sub = g frame.link.target ++ sub.parts.flatMap f) :
          ((looked ++ [frame.link.target]).flatMap g ++ (parts ++ rest).flatMap f).Subperm
            (looked.flatMap g ++ (sub :: rest).flatMap f) := by
        simp only [List.flatMap_append, List.flatMap_cons, List.flatMap_nil, List.append_nil, split,
          List.append_assoc]
        exact ((List.Subperm.refl _).append ((List.Subperm.refl _).append
          ((subperm_flatMap f part).append (.refl _))))
      refine ⟨next, parts ++ rest, visited, ⟨?_, fits, ?_, ?_⟩, ?_⟩
      · rw [opens]
        refine pending_append unfoldsParts (fun child member => ?_) others
        have lower := low child member
        omega
      · exact (spread _ _ (nodes_eq_of_unfolds unfolds)).trans inv.nodes
      · exact (spread _ _ (batches_eq_of_unfolds unfolds)).trans inv.batches
      · have sizes := sum_le_of_subperm (subperm_map Subtree.size part)
        have whole := sub.size_eq
        simp only [List.map_append, List.map_cons, List.sum_append, List.sum_cons]
        omega

/-! ## All steps -/

theorem reaches_ok (cached : t.triangles.size = t.batches.size) {first : Search} {rest : List Subtree}
    (inv : Invariant t first [] rest) {s : Search} {looked : List Target}
    (reaches : t.Reaches query ray maxT first s looked) :
    ∃ rest', Invariant t s looked rest' := by
  induction reaches with
  | start => exact ⟨rest, inv⟩
  | step _ pending visited ih =>
      obtain ⟨rest', inv'⟩ := ih
      obtain ⟨next, rest'', visited', inv'', _⟩ := @step_ok t query ray maxT cached _ _ _ inv' _ _ pending
      rw [visited] at visited'
      rw [Except.ok.inj visited']
      exact ⟨rest'', inv''⟩

theorem searchFrom_ok (cached : t.triangles.size = t.batches.size) {steps : Nat} {s : Search}
    {looked : List Target} {rest : List Subtree} (inv : Invariant t s looked rest)
    (enough : (rest.map Subtree.size).sum ≤ steps) :
    ∃ answer, t.searchFrom query ray maxT steps s = .ok answer := by
  -- The number of pending places bounds the steps that are left.
  induction steps generalizing s looked rest with
  | zero =>
      unfold searchFrom
      cases pending : s.next? with
      | none => exact ⟨_, rfl⟩
      | some next =>
          obtain ⟨_, _, _, _, less⟩ := @step_ok t query ray maxT cached _ _ _ inv _ _ pending
          omega
  | succ steps ih =>
      unfold searchFrom
      cases pending : s.next? with
      | none => exact ⟨_, rfl⟩
      | some next =>
          obtain ⟨frame, deferred⟩ := next
          obtain ⟨after, rest', visited, inv', less⟩ := @step_ok t query ray maxT cached _ _ _ inv _ _ pending
          simp only [visited, ok_bind]
          exact ih inv' (by omega)

theorem invariant_start {source : TriangleSource} {root : Subtree} (shaped : t.Shaped source root)
    (interval : Interval) (stack : TraversalStack) : Invariant t (start interval stack) [] [root] where
  pending := by
    have refers : rootLink.target = .inner 0 := by decide
    exact .cons (refers ▸ shaped.unfolds) shaped.height .nil
  room := Nat.zero_le _
  nodes := by simpa using shaped.nodes.subperm
  batches := by simpa using shaped.batches.subperm

theorem size_le_of_shaped {source : TriangleSource} {root : Subtree} (shaped : t.Shaped source root) :
    t.nodes.size ≤ maxIndex + 1 := by
  have refers : rootLink.target = .inner 0 := by decide
  by_contra more
  have last : t.nodes.size - 1 ∈ root.nodes := by
    rw [shaped.nodes.mem_iff, List.mem_range]
    omega
  have bound := Unfolds.node_le (refers ▸ shaped.unfolds) _ last
  omega

theorem search_ok {source : TriangleSource} {root : Subtree} (shaped : t.Shaped source root)
    (cached : t.triangles.size = t.batches.size) (stack : TraversalStack) :
    ∃ answer, t.search query ray maxT stack = .ok answer := by
  unfold search
  cases ray.clip? t.bounds ray.minT maxT with
  | none => exact ⟨_, rfl⟩
  | some interval =>
      have enough : 2 * (maxIndex + 1) + 1 ≤ maxSteps := by decide
      have places := root.size_le
      have length := shaped.nodes.length_eq
      have indices := size_le_of_shaped shaped
      rw [List.length_range] at length
      apply searchFrom_ok cached (invariant_start shaped interval stack)
      simp only [List.map_cons, List.map_nil, List.sum_cons, List.sum_nil]
      omega

/-- Queries of a valid tree come to their answers, whatever the ray is and whatever the stack held
before. In every state on the way the next step succeeds and the stack has at most one child for each
level, and no node and no batch is looked at twice. -/
theorem queries_of_valid (t : Tree) (source : TriangleSource)
    (cached : t.triangles.size = t.batches.size) (valid : t.validate source = .ok ()) (ray : Ray)
    (maxT : Float32) (stack : TraversalStack) :
    (∃ answer, t.closestHit? ray maxT stack = .ok answer) ∧
      (∃ answer, t.anyHit ray maxT stack = .ok answer) ∧
      ∀ query interval s looked, t.Reaches query ray maxT (start interval stack) s looked →
        s.deferred.length ≤ maxDepth + 1 ∧
        (∀ frame deferred, s.next? = some (frame, deferred) →
          ∃ next, t.visit query ray maxT frame deferred s.best = .ok next) ∧
        (looked.flatMap Target.nodes).Nodup ∧
        (∀ node ∈ looked.flatMap Target.nodes, node < t.nodes.size) ∧
        (looked.flatMap Target.batches).Nodup ∧
        ∀ batch ∈ looked.flatMap Target.batches, batch < t.batches.size := by
  obtain ⟨_, root, shaped⟩ := ((settles_validate t source).ok_iff ()).1 valid
  refine ⟨search_ok shaped cached stack, ?_, fun query interval s looked reaches => ?_⟩
  · obtain ⟨answer, found⟩ := @search_ok t .any ray maxT source root shaped cached stack
    exact ⟨_, by rw [anyHit, found]; rfl⟩
  · obtain ⟨rest, inv⟩ := reaches_ok cached (invariant_start shaped interval stack) reaches
    have nodes := (List.sublist_append_left _ _).subperm.trans inv.nodes
    have batches := (List.sublist_append_left _ _).subperm.trans inv.batches
    refine ⟨inv.room, fun frame deferred pending => ?_, nodup_of_subperm nodes List.nodup_range,
      fun node member => List.mem_range.1 (nodes.subset member),
      nodup_of_subperm batches List.nodup_range,
      fun batch member => List.mem_range.1 (batches.subset member)⟩
    obtain ⟨next, _, visited, _⟩ := @step_ok t query ray maxT cached _ _ _ inv _ _ pending
    exact ⟨next, visited⟩

def floorAt (height : Float32) : Facet := ⟨⟨0, 0, height⟩, ⟨1, 0, height⟩, ⟨0, 1, height⟩⟩

def floors : TriangleSource := .ofArray #[floorAt 0, floorAt 10, floorAt 20]

/-- A tree over the floors, with the lowest one beside a node for the other two. -/
def tower : Tree where
  bounds := floors.boundsOf [0, 1, 2]
  nodes := #[
    ⟨⟨floors.boundsOf [0], ⟨1⟩⟩, ⟨floors.boundsOf [1, 2], ⟨16⟩⟩⟩,
    ⟨⟨floors.boundsOf [1], ⟨17⟩⟩, ⟨floors.boundsOf [2], ⟨33⟩⟩⟩]
  batches := #[.replicate 0, .replicate 1, .replicate 2]
  triangles := #[floorAt 0, floorAt 10, floorAt 20].map fun floor => .ofTriangles (.replicate floor)
  triangleCount := 3
  statistics := {}

def downward : Ray where
  origin := ⟨0.25, 0.25, 21⟩
  direction := ⟨0, 0, -1⟩
  inverse := ⟨largest, largest, -1⟩
  minT := 0

/-- Both children of the root are open to the ray. The nearer one is another node, and while the ray is there the
lowest floor waits on the stack. -/
theorem queries_of_valid_tower :
    tower.triangles.size = tower.batches.size ∧ tower.validate floors = .ok () ∧
      (∃ answer, tower.closestHit? downward infinity {} = .ok answer) ∧
      (∃ answer, tower.anyHit downward infinity {} = .ok answer) ∧
      ∃ s frame waiting next, tower.Reaches .closest downward infinity (start ⟨0, infinity⟩ {}) s [.inner 0] ∧
        s.next? = some (frame, [waiting]) ∧ frame.link.target = .inner 1 ∧ waiting.link.target = .leaf ⟨0, 1⟩ ∧
        tower.visit .closest downward infinity frame [waiting] s.best = .ok next := by
  have cached : tower.triangles.size = tower.batches.size := by decide +kernel
  have valid : tower.validate floors = .ok () := by decide +kernel
  obtain ⟨closest, any, states⟩ := queries_of_valid tower floors cached valid downward infinity {}
  obtain ⟨s, visited, expanded⟩ := exists_ok_of_any
    (tower.visit .closest downward infinity ⟨rootLink, ⟨0, infinity⟩⟩ [] none)
    (fun s => s.next?.any fun (next : Frame × List Frame) => decide (next.1.link.target = .inner 1) &&
      decide (next.2.map (·.link.target) = [.leaf ⟨0, 1⟩])) (by decide +kernel)
  simp only [Option.any_eq_true, Bool.and_eq_true, decide_eq_true_eq] at expanded
  obtain ⟨⟨frame, deferred⟩, pending, nearer, farther⟩ := expanded
  obtain ⟨waiting, rfl, leaf⟩ := List.map_eq_singleton_iff.1 farther
  have begins : (start ⟨0, infinity⟩ {}).next? = some (⟨rootLink, ⟨0, infinity⟩⟩, []) := rfl
  have reaches := Reaches.step .start begins visited
  rw [List.nil_append, (by decide : rootLink.target = .inner 0)] at reaches
  obtain ⟨_, goesOn, _⟩ := states .closest ⟨0, infinity⟩ s _ reaches
  obtain ⟨next, looked⟩ := goesOn frame _ pending
  exact ⟨cached, valid, closest, any, s, frame, waiting, next, reaches, pending, nearer, leaf, looked⟩

end Tree

end BoxTree

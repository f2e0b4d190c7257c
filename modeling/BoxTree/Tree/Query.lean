import BoxTree.Tree

/-!
# Queries

Finds the triangles of a tree that a ray meets. Children that are not looked at right away are
deferred with the distances at which the ray is in their boxes, and are dropped later if these lie
beyond the best hit.
-/

namespace BoxTree
open Scalar

structure Hit where
  distance : Float32
  uv : Barycentric Float32
  triangle : Nat

inductive Query where
  | closest
  | any
deriving DecidableEq

structure Frame where
  link : Link
  interval : Interval

/-- Scratch space for the deferred children of a query, the last one first. It can be reused from
one query to the next, with whatever the last one left in it. -/
structure TraversalStack where
  frames : List Frame := []

def TraversalStack.clear (_ : TraversalStack) : TraversalStack := {}

structure Search where
  current : Option Frame
  deferred : List Frame
  best : Option Hit
  finished : Bool := false

def Search.next? (s : Search) : Option (Frame × List Frame) :=
  if s.finished then none
  else
    match s.current, s.deferred with
    | some frame, deferred => some (frame, deferred)
    | none, frame :: deferred => some (frame, deferred)
    | none, [] => none

def Frame.limit (frame : Frame) (best : Option Hit) : Float32 :=
  best.elim frame.interval.exit fun hit => minNum frame.interval.exit hit.distance

def Child.frame? (child : Child) (interval : Interval) : Option Frame :=
  interval.nonempty?.map fun interval => ⟨child.link, interval⟩

def Hit.improves (distance : Float32) (best : Option Hit) : Bool :=
  best.all fun hit => decide (distance < hit.distance)

namespace Tree

def batchHits (t : Tree) (ray : Ray) (maxT : Float32) (batch : Nat) :
    Except Fault (List (Fin 4 × TriangleHit)) :=
  match t.triangles[batch]? with
  | none => .error .outOfBounds
  | some triangles =>
    .ok ((triangles.intersect ray).filter fun (_, hit) =>
      decide (ray.minT ≤ hit.distance) && decide (hit.distance ≤ maxT))

def scanLanes (t : Tree) (query : Query) (batch : Nat) :
    List (Fin 4 × TriangleHit) → Option Hit → Except Fault (Option Hit × Bool)
  | [], best => .ok (best, false)
  | (lane, hit) :: rest, best =>
    if Hit.improves hit.distance best then
      match t.batches[batch]? with
      | none => .error .outOfBounds
      | some indices =>
        let best := some ⟨hit.distance, hit.uv, indices.get lane⟩
        match query with
        | .any => .ok (best, true)
        | .closest => scanLanes t query batch rest best
    else scanLanes t query batch rest best

def scanBatches (t : Tree) (query : Query) (ray : Ray) (maxT : Float32) :
    List Nat → Option Hit → Except Fault (Option Hit × Bool)
  | [], best => .ok (best, false)
  | batch :: rest, best => do
    let hits ← t.batchHits ray maxT batch
    match ← t.scanLanes query batch hits best with
    | (best, true) => return (best, true)
    | (best, false) => scanBatches t query ray maxT rest best

/-- The children of a node that the ray meets between two distances: the nearer one to be looked at
next, the left one if both are equally near, and the other one in front of those that are deferred.
There is room to defer as many as a tree of the largest depth has levels. -/
def expand (node : Node) (ray : Ray) (tMin tMax : Float32) (deferred : List Frame) :
    Except Fault (Option Frame × List Frame) :=
  let intervals := node.clip ray tMin tMax
  match node.left.frame? intervals.left, node.right.frame? intervals.right with
  | some left, some right =>
    let (near, far) :=
      if right.interval.entry < left.interval.entry then (right, left) else (left, right)
    if deferred.length < maxDepth + 1 then .ok (some near, far :: deferred)
    else .error .stackOverflow
  | some frame, none | none, some frame => .ok (some frame, deferred)
  | none, none => .ok (none, deferred)

def visit (t : Tree) (query : Query) (ray : Ray) (maxT : Float32) (frame : Frame)
    (deferred : List Frame) (best : Option Hit) : Except Fault Search :=
  let limit := frame.limit best
  if frame.interval.entry > limit then .ok { current := none, deferred, best }
  else
    match frame.link.target with
    | .missing => .ok { current := none, deferred, best }
    | .inner index =>
      match t.nodes[index]? with
      | none => .error .outOfBounds
      | some node => do
        let (current, deferred) ← expand node ray frame.interval.entry limit deferred
        return { current, deferred, best }
    | .leaf range => do
      let (best, finished) ← t.scanBatches query ray maxT range.toList best
      return { current := none, deferred, best, finished }

def searchFrom (t : Tree) (query : Query) (ray : Ray) (maxT : Float32) :
    (steps : Nat) → Search → Except Fault (Option Hit × TraversalStack)
  | steps, s =>
    match s.next?, steps with
    | none, _ => .ok (s.best, ⟨s.deferred⟩)
    | some _, 0 => .error .endless
    | some (frame, deferred), steps + 1 => do
      let next ← t.visit query ray maxT frame deferred s.best
      searchFrom t query ray maxT steps next

/-- Bound on the steps of a query. It is far above the number of links in a well-formed tree. Links
that form a cycle can lead a query to it. -/
def maxSteps : Nat := 1 <<< 62

def rootLink : Link := ⟨0⟩

def start (interval : Interval) (stack : TraversalStack) : Search where
  current := some ⟨rootLink, interval⟩
  deferred := stack.clear.frames
  best := none

def search (t : Tree) (query : Query) (ray : Ray) (maxT : Float32) (stack : TraversalStack) :
    Except Fault (Option Hit × TraversalStack) :=
  match ray.clip? t.bounds ray.minT maxT with
  | none => .ok (none, stack.clear)
  | some interval => t.searchFrom query ray maxT maxSteps (start interval stack)

def closestHit? (t : Tree) (ray : Ray) (maxT : Float32) (stack : TraversalStack) :
    Except Fault (Option Hit × TraversalStack) :=
  t.search .closest ray maxT stack

def anyHit (t : Tree) (ray : Ray) (maxT : Float32) (stack : TraversalStack) :
    Except Fault (Bool × TraversalStack) := do
  let (hit, stack) ← t.search .any ray maxT stack
  return (hit.isSome, stack)

end Tree

end BoxTree

import BoxTree.Arena
import BoxTree.Build.Decision
import BoxTree.Build.Orderings
import BoxTree.Build.Primitives

/-!
# Binned builds

Builds a tree by sorting the centroids of a node into bins and looking at the places between bins.
The top of the tree is built first. Subtrees below a size are left to tasks, each with an arena of
its own, and appended in the order in which they were handed out, whatever order they end in.
-/

namespace BoxTree.Binned

variable {n : Nat}

/-- Rearranges keys so that a number of smallest ones come first. -/
abbrev Selection (n : Nat) := List (CentroidKey n) → Nat → List (CentroidKey n)

def Selection.sorted : Selection n := fun keys _ => keys.mergeSort CentroidKey.le

structure Binning where
  axis : Axis
  origin : Float32
  /-- Bins per unit of length. -/
  scale : Float32
  count : Nat

namespace Binning

def of? (axis : Axis) (centroids : Box) (count : Nat) : Option Binning :=
  let extent := centroids.length axis
  if extent > 0 then some ⟨axis, centroids.lower.get axis, Scalar.ofCount count / extent, count⟩
  else none

def bin (b : Binning) (centroid : Vec3 Float32) : Nat :=
  min (Scalar.truncate ((centroid.get b.axis - b.origin) * b.scale)) (b.count - 1)

def fill (b : Binning) (p : Primitives n) (triangles : List (Fin n)) : Array Portion :=
  triangles.foldl
    (fun bins i => bins.modify (b.bin (p.centroid i)) fun q => q.merge ⟨1, p.box i⟩)
    (Array.replicate b.count .empty)

end Binning

structure BinSplit where
  binning : Binning
  position : Nat

def splitAlong? (p : Primitives n) (s : Settings) (triangles : List (Fin n)) (bounds : Box)
    (axis : Axis) : Option (Split BinSplit) := do
  let binning ← Binning.of? axis (p.centroidBoundsOf triangles) s.binCount
  let bins := (binning.fill p triangles).toList
  let best ← (CostModel.ofSettings s).sweep axis bounds.surfaceArea bins
  let left := Portion.mergeAll (bins.take best.position)
  return ⟨best.cost, left.count, ⟨binning, best.position⟩⟩

def bestSplit? (p : Primitives n) (s : Settings) (triangles : List (Fin n)) (bounds : Box) :
    Option (Split BinSplit) :=
  Axis.all.foldl
    (fun best axis =>
      match best, splitAlong? p s triangles bounds axis with
      | some a, some b => some (if b.cost < a.cost then b else a)
      | best, none => best
      | none, found => found)
    none

/-- Closes in on the boundary between left and right from both ends. The `gap` triangles from
position `left` on are still to be looked at: one that belongs to the right changes places with the
last of them. Answers the number of triangles on the left. -/
def closeIn (isLeft : Fin n → Bool) : (gap left : Nat) → Array (Fin n) → Nat × Array (Fin n)
  | 0, left, triangles => (left, triangles)
  | gap + 1, left, triangles =>
    if triangles[left]?.any isLeft then closeIn isLeft gap (left + 1) triangles
    else closeIn isLeft gap left (triangles.swapIfInBounds left (left + gap))

def BinSplit.separate (split : BinSplit) (p : Primitives n) (triangles : List (Fin n))
    (counted : Nat) : Except Fault (Nat × List (Fin n)) :=
  let isLeft (i : Fin n) : Bool := split.binning.bin (p.centroid i) < split.position
  let (left, moved) := closeIn isLeft triangles.length 0 triangles.toArray
  if left = counted then .ok (left, moved.toList) else .error .unevenPartition

def separateMedian (select : Selection n) (p : Primitives n) (triangles : List (Fin n)) :
    Except Fault (Nat × List (Fin n)) :=
  let axis := (p.centroidBoundsOf triangles).longestAxis
  let middle := triangles.length / 2
  if middle < triangles.length then
    .ok (middle, (select (triangles.map (CentroidKey.of p.centroids axis)) middle).map (·.triangle))
  else .error .outOfBounds

inductive Step (n : Nat) where
  | leaf (reason : LeafReason)
  | split (left right : List (Fin n))

def Step.ofSeparated (separated : Nat × List (Fin n)) : Except Fault (Step n) :=
  let (count, triangles) := separated
  if count ≤ triangles.length then .ok (.split (triangles.take count) (triangles.drop count))
  else .error .outOfBounds

def plan (select : Selection n) (p : Primitives n) (s : Settings) (triangles : List (Fin n))
    (bounds : Box) (depth : Nat) (statistics : BuildStatistics) :
    Except Fault (Step n × BuildStatistics) :=
  match forcedLeaf? s triangles.length depth with
  | some reason => .ok (.leaf reason, statistics)
  | none =>
    match Decision.choose (CostModel.ofSettings s) triangles.length depth
        (bestSplit? p s triangles bounds) with
    | .leaf reason => .ok (.leaf reason, statistics)
    | .split best => do
      let step ← Step.ofSeparated (← best.how.separate p triangles best.leftCount)
      return (step, statistics)
    | .median => do
      let step ← Step.ofSeparated (← separateMedian select p triangles)
      return (step, statistics.recordMedianSplit)

def buildSubtree (select : Selection n) (p : Primitives n) (s : Settings) :
    (levels : Nat) → List (Fin n) → (bounds : Box) → Arena → Except Fault (Link × Arena)
  | 0, triangles, _, arena =>
    arena.addLeaf (triangles.map Fin.val) maxDepth (reasonAtLimit s triangles.length)
  | levels + 1, triangles, bounds, arena => do
    let depth := maxDepth - (levels + 1)
    let (step, statistics) ← plan select p s triangles bounds depth arena.statistics
    let arena := { arena with statistics }
    match step with
    | .leaf reason => arena.addLeaf (triangles.map Fin.val) depth reason
    | .split left right => do
      let leftBox := p.boundsOf left
      let rightBox := p.boundsOf right
      let (index, arena) ← arena.pushNode .empty
      let (leftLink, arena) ← buildSubtree select p s levels left leftBox arena
      let (rightLink, arena) ← buildSubtree select p s levels right rightBox arena
      let arena := arena.setNode index ⟨⟨leftBox, leftLink⟩, ⟨rightBox, rightLink⟩⟩
      return (← Link.toInner index, arena)

structure Task (n : Nat) where
  triangles : List (Fin n)
  bounds : Box
  levels : Nat

def Task.run (select : Selection n) (p : Primitives n) (s : Settings) (task : Task n) :
    Except Fault (Link × Arena) :=
  buildSubtree select p s task.levels task.triangles task.bounds
    { statistics := { parallelTasks := 1 } }

inductive Slot where
  | ready (link : Link)
  | task (id : Nat)

def Slot.linkNow : Slot → Link
  | ready link => link
  | task _ => .missing

structure Fixup where
  node : Nat
  side : Side
  task : Nat

/-- The top of a tree. Tasks are numbered in the order in which they were handed out. -/
structure Top (n : Nat) where
  arena : Arena := {}
  tasks : Array (Task n) := #[]
  fixups : Array Fixup := #[]

namespace Top

def handOut (top : Top n) (task : Task n) : Slot × Top n :=
  (.task top.tasks.size, { top with tasks := top.tasks.push task })

def await (top : Top n) (node : Nat) (side : Side) : Slot → Top n
  | .ready _ => top
  | .task id => { top with fixups := top.fixups.push ⟨node, side, id⟩ }

def addLeaf (top : Top n) (triangles : List (Fin n)) (depth : Nat) (reason : LeafReason) :
    Except Fault (Slot × Top n) := do
  let (link, arena) ← top.arena.addLeaf (triangles.map Fin.val) depth reason
  return (.ready link, { top with arena })

def setNode (top : Top n) (index : Nat) (leftBox : Box) (left : Slot) (rightBox : Box)
    (right : Slot) : Top n :=
  let top := (top.await index .left left).await index .right right
  let node := ⟨⟨leftBox, left.linkNow⟩, ⟨rightBox, right.linkNow⟩⟩
  { top with arena := top.arena.setNode index node }

def build (select : Selection n) (p : Primitives n) (s : Settings) :
    (levels : Nat) → List (Fin n) → (bounds : Box) → Top n → Except Fault (Slot × Top n)
  | levels, triangles, bounds, top =>
    if triangles.length < s.taskThreshold then .ok (top.handOut ⟨triangles, bounds, levels⟩)
    else
      match levels with
      | 0 => top.addLeaf triangles maxDepth (reasonAtLimit s triangles.length)
      | levels + 1 => do
        let depth := maxDepth - (levels + 1)
        let (step, statistics) ← plan select p s triangles bounds depth top.arena.statistics
        let top := { top with arena := { top.arena with statistics } }
        match step with
        | .leaf reason => top.addLeaf triangles depth reason
        | .split left right => do
          let leftBox := p.boundsOf left
          let rightBox := p.boundsOf right
          let (index, arena) ← top.arena.pushNode .empty
          let (leftSlot, top) ← build select p s levels left leftBox { top with arena }
          let (rightSlot, top) ← build select p s levels right rightBox top
          let link ← Link.toInner index
          return (.ready link, top.setNode index leftBox leftSlot rightBox rightSlot)

end Top

abbrev Finished := Nat × Except Fault (Link × Arena)

def appendTasks (arena : Arena) : List Finished → Except Fault (List Link × Arena)
  | [] => .ok ([], arena)
  | (_, result) :: rest => do
    let (root, part) ← result
    let (link, arena) ← (arena.append part root).mapError (·.cause)
    let (links, arena) ← appendTasks arena rest
    return (link :: links, arena)

def rootOf (roots : List Link) (task : Nat) : Except Fault Link :=
  match roots[task]? with
  | some link => .ok link
  | none => .error .outOfBounds

def Slot.resolve (roots : List Link) : Slot → Except Fault Link
  | ready link => .ok link
  | task id => rootOf roots id

def Fixup.apply (roots : List Link) (arena : Arena) (f : Fixup) : Except Fault Arena := do
  arena.setLink f.node f.side (← rootOf roots f.task)

def assemble (root : Slot) (top : Top n) (finished : List Finished) (bounds : Box) :
    Except Fault Arena := do
  let inOrder := finished.mergeSort fun a b => decide (a.1 ≤ b.1)
  if inOrder.length ≠ top.tasks.size then throw .lostTask
  let (roots, arena) ← appendTasks top.arena inOrder
  let arena ← top.fixups.toList.foldlM (Fixup.apply roots) arena
  arena.rooted (← root.resolve roots) bounds

def Top.finish (select : Selection n) (p : Primitives n) (s : Settings) (top : Top n) :
    List Finished :=
  top.tasks.toList.zipIdx.map fun (task, id) => (id, task.run select p s)

def buildAll (select : Selection n) (p : Primitives n) (s : Settings) : Except Fault Arena := do
  let (root, top) ← Top.build select p s maxDepth (List.finRange n) p.bounds {}
  assemble root top (top.finish select p s) p.bounds

end BoxTree.Binned

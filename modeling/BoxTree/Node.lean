import BoxTree.Lanes
import BoxTree.Link
import BoxTree.Ray

/-!
# Nodes

Inner nodes of a tree. A node holds the boxes and the links of both children, and tests both boxes
against a ray at once.
-/

namespace BoxTree
open Scalar

inductive Side where
  | left | right
deriving DecidableEq

namespace Side

def all : List Side := [left, right]

def index : Side → Nat
  | left => 0
  | right => 1

def ofIndex : Nat → Except Fault Side
  | 0 => .ok left
  | 1 => .ok right
  | _ => .error .outOfBounds

end Side

structure Sides (α : Type) where
  left : α
  right : α

def Sides.get {α : Type} (s : Sides α) : Side → α
  | .left => s.left
  | .right => s.right

structure Child where
  box : Box
  link : Link

def Child.missing : Child := ⟨.empty, .missing⟩

structure Node where
  left : Child
  right : Child

namespace Node

def empty : Node := ⟨.missing, .missing⟩

def single (child : Child) : Node := ⟨child, .missing⟩

def child (n : Node) : Side → Child
  | .left => n.left
  | .right => n.right

def setChild (n : Node) (side : Side) (child : Child) : Node :=
  match side with
  | .left => { n with left := child }
  | .right => { n with right := child }

def setLink (n : Node) (side : Side) (link : Link) : Node :=
  n.setChild side { n.child side with link := link }

def setBox (n : Node) (side : Side) (box : Box) : Node :=
  n.setChild side { n.child side with box := box }

def planes (n : Node) (ray : Ray) (axis : Axis) : Lanes Float32 :=
  if isNegative (ray.inverse.get axis) then
    ⟨n.left.box.upper.get axis, n.right.box.upper.get axis,
      n.left.box.lower.get axis, n.right.box.lower.get axis⟩
  else
    ⟨n.left.box.lower.get axis, n.right.box.lower.get axis,
      n.left.box.upper.get axis, n.right.box.upper.get axis⟩

/-- Far distances are negated, so that both ends of an interval are found as a maximum. -/
def flip : Lanes Float32 := ⟨1, 1, -1, -1⟩

def planeDistances (n : Node) (ray : Ray) (axis : Axis) : Lanes Float32 :=
  let offsets := n.planes ray axis - .replicate (ray.origin.get axis)
  let distances := offsets * .replicate (ray.inverse.get axis) * flip
  offsets.zipWith
    (fun offset t => if offset == 0 && ray.direction.get axis == 0 then negativeInfinity else t)
    distances

def clip (n : Node) (ray : Ray) (tMin tMax : Float32) : Sides Interval :=
  let start : Lanes Float32 := ⟨tMin, tMin, -tMax, -tMax⟩
  let found := Axis.all.foldl (fun acc axis => acc.zipWith maxNum (n.planeDistances ray axis)) start
  ⟨⟨found.l0, widenFar (-found.l2)⟩, ⟨found.l1, widenFar (-found.l3)⟩⟩

end Node

end BoxTree

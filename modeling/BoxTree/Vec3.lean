import BoxTree.Fault

/-!
# Three dimensional vectors

Points and vectors share one type, over any kind of component.
-/

namespace BoxTree

inductive Axis where
  | x | y | z
deriving DecidableEq

namespace Axis

def all : List Axis := [x, y, z]

theorem mem_all (axis : Axis) : axis ∈ all := by
  cases axis <;> decide

def index : Axis → Nat
  | x => 0
  | y => 1
  | z => 2

def ofIndex : Nat → Except Fault Axis
  | 0 => .ok x
  | 1 => .ok y
  | 2 => .ok z
  | _ => .error .outOfBounds

def next : Axis → Axis
  | x => y
  | y => z
  | z => x

end Axis

structure Vec3 (α : Type) where
  x : α
  y : α
  z : α
deriving DecidableEq

namespace Vec3

variable {α β γ : Type}

@[inline] def get (v : Vec3 α) : Axis → α
  | .x => v.x
  | .y => v.y
  | .z => v.z

def set (v : Vec3 α) (axis : Axis) (a : α) : Vec3 α :=
  match axis with
  | .x => { v with x := a }
  | .y => { v with y := a }
  | .z => { v with z := a }

def ofFn (f : Axis → α) : Vec3 α := ⟨f .x, f .y, f .z⟩

@[inline] def replicate (a : α) : Vec3 α := ⟨a, a, a⟩

@[inline] def map (f : α → β) (v : Vec3 α) : Vec3 β := ⟨f v.x, f v.y, f v.z⟩

@[inline] def zipWith (f : α → β → γ) (v : Vec3 α) (w : Vec3 β) : Vec3 γ := ⟨f v.x w.x, f v.y w.y, f v.z w.z⟩

def toList (v : Vec3 α) : List α := [v.x, v.y, v.z]

instance [Add α] : Add (Vec3 α) := ⟨zipWith (· + ·)⟩

instance [Sub α] : Sub (Vec3 α) := ⟨zipWith (· - ·)⟩

@[inline] def scale [Mul α] (v : Vec3 α) (a : α) : Vec3 α := v.map (· * a)

def divide [Div α] (v : Vec3 α) (a : α) : Vec3 α := v.map (· / a)

@[inline] def dot [Add α] [Mul α] (v w : Vec3 α) : α := v.x * w.x + v.y * w.y + v.z * w.z

@[inline] def cross [Sub α] [Mul α] (v w : Vec3 α) : Vec3 α :=
  ⟨v.y * w.z - v.z * w.y, v.z * w.x - v.x * w.z, v.x * w.y - v.y * w.x⟩

theorem add_eq [Add α] (v w : Vec3 α) : v + w = ⟨v.x + w.x, v.y + w.y, v.z + w.z⟩ := rfl

theorem sub_eq [Sub α] (v w : Vec3 α) : v - w = ⟨v.x - w.x, v.y - w.y, v.z - w.z⟩ := rfl

theorem scale_eq [Mul α] (v : Vec3 α) (a : α) : v.scale a = ⟨v.x * a, v.y * a, v.z * a⟩ := rfl

theorem get_set_self (v : Vec3 α) (axis : Axis) (a : α) : (v.set axis a).get axis = a := by
  cases axis <;> rfl

theorem get_set_of_ne (v : Vec3 α) {axis other : Axis} (different : other ≠ axis) (a : α) :
    (v.set axis a).get other = v.get other := by
  cases axis <;> cases other <;> first | rfl | exact absurd rfl different

theorem set_set (v : Vec3 α) (axis : Axis) (a b : α) : (v.set axis a).set axis b = v.set axis b := by
  cases axis <;> rfl

theorem get_ofFn (f : Axis → α) (axis : Axis) : (ofFn f).get axis = f axis := by
  cases axis <;> rfl

theorem get_map (f : α → β) (v : Vec3 α) (axis : Axis) : (v.map f).get axis = f (v.get axis) := by
  cases axis <;> rfl

theorem get_zipWith (f : α → β → γ) (v : Vec3 α) (w : Vec3 β) (axis : Axis) :
    (v.zipWith f w).get axis = f (v.get axis) (w.get axis) := by
  cases axis <;> rfl

end Vec3

end BoxTree

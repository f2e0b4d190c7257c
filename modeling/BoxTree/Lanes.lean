import BoxTree.Vec3

/-!
# Lanes

Four values handled together. Arithmetic acts on every lane alone, so that a formula written once
over `Lane` gives in each lane what it gives on single values.
-/

namespace BoxTree

class Lane (α : Type) extends Add α, Sub α, Mul α, Div α where
  one : α

instance : Lane Float32 where
  one := 1

structure Lanes (α : Type) where
  l0 : α
  l1 : α
  l2 : α
  l3 : α
deriving DecidableEq

namespace Lanes

variable {α β γ : Type}

def get (v : Lanes α) : Fin 4 → α
  | 0 => v.l0
  | 1 => v.l1
  | 2 => v.l2
  | 3 => v.l3

def ofFn (f : Fin 4 → α) : Lanes α := ⟨f 0, f 1, f 2, f 3⟩

@[inline] def replicate (a : α) : Lanes α := ⟨a, a, a, a⟩

@[inline] def map (f : α → β) (v : Lanes α) : Lanes β := ⟨f v.l0, f v.l1, f v.l2, f v.l3⟩

@[inline] def zipWith (f : α → β → γ) (v : Lanes α) (w : Lanes β) : Lanes γ :=
  ⟨f v.l0 w.l0, f v.l1 w.l1, f v.l2 w.l2, f v.l3 w.l3⟩

def toList (v : Lanes α) : List α := [v.l0, v.l1, v.l2, v.l3]

def mapM? (f : α → Option β) (v : Lanes α) : Option (Lanes β) := do
  return ⟨← f v.l0, ← f v.l1, ← f v.l2, ← f v.l3⟩

instance [Lane α] : Lane (Lanes α) where
  add := zipWith (· + ·)
  sub := zipWith (· - ·)
  mul := zipWith (· * ·)
  div := zipWith (· / ·)
  one := replicate Lane.one

def bits (v : Lanes Bool) : UInt32 :=
  (if v.l0 then 1 else 0) ||| (if v.l1 then 2 else 0) ||| (if v.l2 then 4 else 0) |||
    (if v.l3 then 8 else 0)

def gather (v : Lanes (Vec3 α)) : Vec3 (Lanes α) := ⟨v.map (·.x), v.map (·.y), v.map (·.z)⟩

end Lanes

def Vec3.lane {α : Type} (v : Vec3 (Lanes α)) (i : Fin 4) : Vec3 α := v.map (·.get i)

end BoxTree

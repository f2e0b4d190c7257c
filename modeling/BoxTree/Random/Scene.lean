import BoxTree.Random
import BoxTree.Ray
import BoxTree.Triangle

/-!
# Random scenes

Random triangles, and random rays to meet them.
-/

namespace BoxTree.Draw

variable {γ : Type} [WordSource γ]

def triangle (extent size : Float32) : Draw γ Facet := do
  let half := extent / 2
  let center ← point (.replicate (-half)) (.replicate half)
  let corner : Draw γ (Vec3 Float32) := do return center + (← direction).scale size
  let a ← corner
  let b ← corner
  let c ← corner
  return ⟨a, b, c⟩

def soup (count : Nat) (extent size : Float32) : Draw γ (List Facet) :=
  many (triangle extent size) count

def ray (bounds : Box) : Draw γ Ray := do
  let margin := bounds.size.scale 0.1
  let origin ← point (bounds.lower - margin) (bounds.upper + margin)
  Ray.toward origin (← direction)

def rays (count : Nat) (bounds : Box) : Draw γ (List Ray) :=
  if bounds.isEmpty then do
    return List.replicate count (← Ray.toward (.replicate 0) ⟨0, 0, 1⟩)
  else many (ray bounds) count

end BoxTree.Draw

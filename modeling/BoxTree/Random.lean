import BoxTree.Fault
import BoxTree.Scalar
import BoxTree.Vec3

/-!
# Random numbers

Random words, and the numbers and directions drawn with them.
-/

namespace BoxTree

class WordSource (γ : Type) where
  next : γ → Except Fault (UInt32 × γ)

instance : WordSource (List UInt32) where
  next
    | [] => .error .outOfWords
    | word :: rest => .ok (word, rest)

structure Xoshiro where
  s0 : UInt64
  s1 : UInt64
  s2 : UInt64
  s3 : UInt64

namespace Xoshiro

def rotateLeft (x : UInt64) (k : UInt64) : UInt64 := x <<< k ||| x >>> (64 - k)

def next64 (g : Xoshiro) : UInt64 × Xoshiro :=
  let result := rotateLeft (g.s0 + g.s3) 23 + g.s0
  let t := g.s1 <<< 17
  let s2 := g.s2 ^^^ g.s0
  let s3 := g.s3 ^^^ g.s1
  let s1 := g.s1 ^^^ s2
  let s0 := g.s0 ^^^ s3
  (result, ⟨s0, s1, s2 ^^^ t, rotateLeft s3 45⟩)

def splitMix (state : UInt64) : UInt64 :=
  let z := (state ^^^ state >>> 30) * 0xbf58476d1ce4e5b9
  let z := (z ^^^ z >>> 27) * 0x94d049bb133111eb
  z ^^^ z >>> 31

/-- The generator whose state is the first four outputs of SplitMix64. -/
def ofSeed (seed : UInt64) : Xoshiro :=
  let step := 0x9e3779b97f4a7c15
  ⟨splitMix (seed + step), splitMix (seed + 2 * step), splitMix (seed + 3 * step),
    splitMix (seed + 4 * step)⟩

end Xoshiro

instance : WordSource Xoshiro where
  next g := let (word, g) := g.next64; .ok ((word >>> 32).toUInt32, g)

abbrev Draw (γ α : Type) := StateT γ (Except Fault) α

namespace Draw

variable {γ : Type} [WordSource γ]

def word : Draw γ UInt32 := fun g => WordSource.next g

def unit : Draw γ Float32 := do
  return Float32.ofBits ((0x3f800000 : UInt32) ||| (← word) >>> 9) - 1

def between (lo hi : Float32) : Draw γ Float32 := do
  let length := hi - lo
  if ¬lo ≤ hi then throw .emptyRange
  else if !length.isFinite then throw .unboundedRange
  else return (← unit) * length + lo

def symmetric : Draw γ Float32 := do return (← unit) * 2 + -1

def directionWithin : (tries : Nat) → Draw γ (Vec3 Float32)
  | 0 => throw .endless
  | tries + 1 => do
    let x ← symmetric
    let y ← symmetric
    let sum := x * x + y * y
    if sum < 1 then
      let k := 2 * (1 - sum).sqrt
      return ⟨x * k, y * k, 1 - 2 * sum⟩
    else directionWithin tries

def direction : Draw γ (Vec3 Float32) := directionWithin (1 <<< 62)

def point (lower upper : Vec3 Float32) : Draw γ (Vec3 Float32) := do
  let x ← between lower.x upper.x
  let y ← between lower.y upper.y
  let z ← between lower.z upper.z
  return ⟨x, y, z⟩

def manyOnto {α : Type} (draw : Draw γ α) : (count : Nat) → List α → Draw γ (List α)
  | 0, results => return results
  | count + 1, results => do manyOnto draw count ((← draw) :: results)

def many {α : Type} (draw : Draw γ α) (count : Nat) : Draw γ (List α) := do
  return (← manyOnto draw count []).reverse

end Draw

end BoxTree

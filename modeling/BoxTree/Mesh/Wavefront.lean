import BoxTree.Decimal.Reading
import BoxTree.Mesh

/-!
# Wavefront object files

Reads the triangles of a Wavefront object file. The file is cut into words and line ends, then into
objects: some vertex lines followed by some lines of geometry. Faces and lines with three corners or
more are cut into triangles that share their last corner. A mesh takes the triangles of all objects and
skips their points and lines.
-/

namespace BoxTree.Wavefront
open Scalar

inductive Token where
  | word (text : List Char)
  | lineEnd
deriving DecidableEq

def finish (word : List Char) : List Token := if word = [] then [] else [.word word.reverse]

def tokensFrom (comment : Bool) (word : List Char) : List Char → List Token
  | [] => finish word
  | '\n' :: rest => finish word ++ .lineEnd :: tokensFrom false [] rest
  | c :: rest =>
    if comment then tokensFrom true [] rest
    else if c = '#' then finish word ++ tokensFrom true [] rest
    else if c = ' ' ∨ c = '\t' ∨ c = '\r' then finish word ++ tokensFrom false [] rest
    else tokensFrom false (c :: word) rest

def tokens (text : String) : List Token := tokensFrom false [] text.toList

def keyword (text : String) : Token := .word text.toList

def skipLineEnds (tokens : List Token) : List Token := tokens.dropWhile (· = .lineEnd)

def endLine? : List Token → Option (List Token)
  | [] => some []
  | .lineEnd :: rest => some (skipLineEnds rest)
  | .word _ :: _ => none

def lineWords : List Token → List (List Char) × List Token
  | .word w :: rest => ((w :: (lineWords rest).1), (lineWords rest).2)
  | rest => ([], rest)

structure VertexCounts where
  positions : Nat := 0
  textures : Nat := 0
  normals : Nat := 0

def VertexCounts.add (a b : VertexCounts) : VertexCounts :=
  ⟨a.positions + b.positions, a.textures + b.textures, a.normals + b.normals⟩

/-! ## Vertex lines -/

structure Vertices where
  positions : Array (Vec3 Double) := #[]
  textures : Nat := 0
  normals : Nat := 0

def Vertices.counts (v : Vertices) : VertexCounts := ⟨v.positions.size, v.textures, v.normals⟩

def coordinates? : List Token → Option (Vec3 Double × List Token)
  | .word x :: .word y :: .word z :: rest => do
    return (⟨← Decimal.read? x, ← Decimal.read? y, ← Decimal.read? z⟩, rest)
  | _ => none

def skipNumber : List Token → List Token
  | .word w :: rest => if (Decimal.read? w).isSome then rest else .word w :: rest
  | rest => rest

def vertexLine? (v : Vertices) : List Token → Option (Vertices × List Token)
  | .word ['v'] :: rest => do
    let (position, rest) ← coordinates? rest
    return ({ v with positions := v.positions.push position }, rest)
  | .word ['v', 'n'] :: rest => do
    let (_, rest) ← coordinates? rest
    return ({ v with normals := v.normals + 1 }, rest)
  | .word ['v', 't'] :: .word u :: rest => do
    let _ ← Decimal.read? u
    return ({ v with textures := v.textures + 1 }, skipNumber (skipNumber rest))
  | _ => none

def vertices? : (lines : Nat) → Vertices → List Token → Option (Vertices × List Token)
  | 0, v, tokens => some (v, tokens)
  | lines + 1, v, tokens =>
    match vertexLine? v tokens with
    | none => some (v, tokens)
    | some (v, rest) => do vertices? lines v (← endLine? rest)

/-! ## Geometry lines -/

def integer? (word : List Char) : Option Int :=
  let (negative, digits) := Decimal.splitSign word
  if digits ≠ [] ∧ digits.all Char.isDigit then
    some (if negative then -(Decimal.ofDigits digits : Int) else Decimal.ofDigits digits)
  else none

/-- The position among the vertices of an object that a number in the file refers to. Vertices are
numbered from one through the whole file, `before` of them before the object. -/
def ownIndex? (before count : Nat) (word : List Char) : Option (Fin count) := do
  let number ← integer? word
  let index := number - before - 1
  if h : 0 ≤ index ∧ index.toNat < count then return ⟨index.toNat, h.2⟩ else none

def parts : (count : Nat) → List Char → List (List Char)
  | 0, _ => []
  | 1, word => [word]
  | count + 1, word =>
    match word.dropWhile (· ≠ '/') with
    | [] => [word]
    | _ :: rest => word.takeWhile (· ≠ '/') :: parts count rest

def isOptionalIndex (before count : Nat) (word : List Char) : Bool :=
  word = [] || (ownIndex? before count word).isSome

def corner? (before : VertexCounts) (v : Vertices) (word : List Char) :
    Option (Fin v.positions.size) :=
  match parts 3 word with
  | position :: others =>
    let textures := others.head?.getD []
    let normals := others.tail.head?.getD []
    if isOptionalIndex before.textures v.textures textures &&
        isOptionalIndex before.normals v.normals normals then
      ownIndex? before.positions v.positions.size position
    else none
  | [] => none

inductive Primitive (α : Type) where
  | point (a : α)
  | line (a b : α)
  | triangle (t : Triangle α)

def Primitive.triangle? {α : Type} : Primitive α → Option (Triangle α)
  | triangle t => some t
  | _ => none

/-- The triangles of a polygon, which share its last corner. Fewer than three corners have none. -/
def fan {α : Type} (corners : List α) : List (Triangle α) :=
  match corners.getLast? with
  | none => []
  | some last =>
    let others := corners.dropLast
    (others.zip others.tail).map fun (a, b) => ⟨last, a, b⟩

def primitives {α : Type} : List α → List (Primitive α)
  | [] => []
  | [a] => [.point a]
  | [a, b] => [.line a b]
  | corners => (fan corners).map .triangle

def isGroupNumber (word : List Char) : Bool :=
  match word with
  | '-' :: _ => false
  | _ => (integer? word).any (· < 0x100000000)

inductive GeometryLine (α : Type) where
  | material
  | shapes (shapes : List (Primitive α))

def GeometryLine.before {α : Type} : GeometryLine α → List (List (Primitive α)) →
    List (List (Primitive α))
  | material, more => [] :: more
  | shapes own, [] => [own]
  | shapes own, first :: more => (own ++ first) :: more

/-- A line of geometry without its end, or nothing if the line is none. The outer option tells such
a line from one that is wrong. -/
def geometryLine? (before : VertexCounts) (v : Vertices) :
    List Token → Option (Option (GeometryLine (Fin v.positions.size) × List Token))
  | .word w :: rest =>
    match String.ofList w with
    | "usemtl" => some <|
      match rest with
      | .word _ :: rest => some (.material, rest)
      | _ => none
    | "s" => some <|
      match rest with
      | .word ['o', 'f', 'f'] :: rest => some (.shapes [], rest)
      | _ =>
        match lineWords rest with
        | (groups, .lineEnd :: rest) =>
          if groups ≠ [] ∧ groups.all isGroupNumber then some (.shapes [], .lineEnd :: rest)
          else none
        | _ => none
    | "g" => some <|
      match (lineWords rest).2 with
      | [] => none
      | rest => some (.shapes [], rest)
    | "f" | "l" => some <|
      match lineWords rest with
      | ([], _) => none
      | (words, rest) => do return (.shapes (primitives (← words.mapM (corner? before v))), rest)
    | _ => none
  | _ => none

def geometry? (before : VertexCounts) (v : Vertices) :
    (lines : Nat) → List Token → Option (List (List (Primitive (Fin v.positions.size))) × List Token)
  | 0, tokens => some ([], tokens)
  | lines + 1, tokens =>
    match geometryLine? before v tokens with
    | none => some ([], tokens)
    | some none => none
    | some (some (line, rest)) => do
      let (more, rest) ← geometry? before v lines (← endLine? rest)
      return (line.before more, rest)

/-! ## Objects and files -/

structure Object where
  vertexCount : Nat
  vertices : Vector (Vec3 Double) vertexCount
  geometries : List (List (Primitive (Fin vertexCount)))

def Object.triangles (o : Object) : List (Triangle (Fin o.vertexCount)) :=
  o.geometries.flatten.filterMap Primitive.triangle?

def skipNamed? (name : String) : List Token → Option (List Token)
  | first :: rest =>
    if first = keyword name then
      match rest with
      | .word _ :: rest => endLine? rest
      | _ => none
    else some (first :: rest)
  | [] => some []

def object? (before : VertexCounts) (tokens : List Token) :
    Option ((Object × VertexCounts) × List Token) := do
  let rest ← skipNamed? "o" tokens
  let (v, rest) ← vertices? tokens.length {} rest
  let (geometries, rest) ← geometry? before v tokens.length rest
  if rest.length < tokens.length then
    return ((⟨_, v.positions.toVector, geometries⟩, before.add v.counts), skipLineEnds rest)
  else none

def objects? : (count : Nat) → VertexCounts → List Token → Option (List Object)
  | _, _, [] => some []
  | 0, _, _ :: _ => none
  | count + 1, before, tokens => do
    let ((object, before), rest) ← object? before tokens
    return object :: (← objects? count before rest)

def parse? (text : String) : Option (List Object) := do
  let rest ← skipNamed? "mtllib" (skipLineEnds (tokens text))
  objects? rest.length {} rest

/-! ## Meshes -/

structure Numbering where
  positions : Array (Vec3 Float32) := #[]
  triangles : Array (Triangle Nat) := #[]

/-- The number of a vertex of an object, given the numbers of those that have one. A vertex without
a number gets the next one, and a position in single precision. A triangle stores 32 bits of the
number. -/
def numberVertex (o : Object) (positions : Array (Vec3 Float32))
    (numbers : Vector (Option Nat) o.vertexCount) (i : Fin o.vertexCount) :
    Nat × Array (Vec3 Float32) × Vector (Option Nat) o.vertexCount :=
  let number := (numbers.get i).getD positions.size
  let positions :=
    if number < positions.size then positions
    else positions.push ((o.vertices.get i).map Double.toSingle)
  (number % 0x100000000, positions, numbers.set i (some number) i.isLt)

def Numbering.addTriangles (o : Object) :
    List (Triangle (Fin o.vertexCount)) → Vector (Option Nat) o.vertexCount → Numbering →
    Numbering
  | [], _, all => all
  | t :: rest, numbers, all =>
    let (a, positions, numbers) := numberVertex o all.positions numbers t.a
    let (b, positions, numbers) := numberVertex o positions numbers t.b
    let (c, positions, numbers) := numberVertex o positions numbers t.c
    addTriangles o rest numbers ⟨positions, all.triangles.push ⟨a, b, c⟩⟩

def Numbering.addObject (all : Numbering) (o : Object) : Numbering :=
  Numbering.addTriangles o o.triangles (.replicate _ none) all

def meshOf (objects : List Object) : Except MeshError Mesh :=
  let all := objects.foldl Numbering.addObject {}
  Mesh.ofArrays all.positions all.triangles

def mesh (text : String) : Except MeshError Mesh :=
  match parse? text with
  | some objects => meshOf objects
  | none => .error .malformed

def meshOfBytes (bytes? : Option ByteArray) : Except MeshError Mesh :=
  match bytes?.bind String.fromUTF8? with
  | some text => mesh text
  | none => .error .unreadable

end BoxTree.Wavefront

import BoxTree.Mesh.Wavefront
import BoxTree.Random.Scene
import BoxTree.Tree.Outline
import BoxTree.Tree.Query
import BoxTree.Tree.Validity

/-!
# The command line

Builds a tree over a mesh or over random triangles and traces random rays against it. Reading files
and printing is left to the program.
-/

namespace BoxTree.CommandLine

structure Options where
  /-- File to read a mesh from. Without one the triangles are random. -/
  obj : Option String := none
  triangles : Option Nat := none
  rays : Option Nat := none
  strategy : Option Strategy := none
  threads : Option Nat := none
  bins : Option Nat := none
  validate : Bool := false
  printTree : Bool := false
  seed : Option Nat := none

inductive Refusal where
  | help
  | invalid
deriving DecidableEq

/-! ## Arguments -/

def count? (text : String) : Option Nat :=
  let digits :=
    match text.toList with
    | '+' :: rest => rest
    | rest => rest
  if digits ≠ [] ∧ digits.all Char.isDigit ∧ Decimal.ofDigits digits ≤ 0xffffffffffffffff then
    some (Decimal.ofDigits digits)
  else none

def strategy? : String → Option Strategy
  | "sequential" => some .exact
  | "parallel" => some .binned
  | _ => none

def once {α : Type} (old new : Option α) : Option (Option α) :=
  match old, new with
  | none, some value => some (some value)
  | _, _ => none

def Options.set (o : Options) (name value : String) : Option Options := do
  match name with
  | "obj" =>
    return { o with obj := ← once o.obj (if value.isEmpty then none else some value) }
  | "triangles" => return { o with triangles := ← once o.triangles (count? value) }
  | "rays" => return { o with rays := ← once o.rays (count? value) }
  | "strategy" => return { o with strategy := ← once o.strategy (strategy? value) }
  | "threads" => return { o with threads := ← once o.threads ((count? value).filter (0 < ·)) }
  | "bins" => return { o with bins := ← once o.bins (count? value) }
  | "seed" => return { o with seed := ← once o.seed (count? value) }
  | _ => none

def Options.setFlag (o : Options) (name : String) : Option Options :=
  match name with
  | "validate" => if o.validate then none else some { o with validate := true }
  | "print-tree" => if o.printTree then none else some { o with printTree := true }
  | _ => none

def isFlag (name : String) : Bool := name == "validate" || name == "print-tree"

def isValue (text : String) : Bool := text == "-" || text.toList.head? != some '-'

def splitName (text : List Char) : String × Option String :=
  match text.dropWhile (· ≠ '=') with
  | [] => (String.ofList text, none)
  | _ :: value => (String.ofList (text.takeWhile (· ≠ '=')), some (String.ofList value))

def orInvalid {α : Type} (value : Option α) : Except Refusal α :=
  match value with
  | some value => .ok value
  | none => .error .invalid

def parseOnto : Options → List String → Except Refusal Options
  | o, [] => .ok o
  | o, arg :: rest =>
    match arg.toList with
    | ['-', '-'] => if rest.isEmpty then .ok o else .error .invalid
    | '-' :: '-' :: text =>
      match splitName text with
      | ("help", none) => .error .help
      | (name, some value) => do parseOnto (← orInvalid (o.set name value)) rest
      | (name, none) =>
        if isFlag name then do parseOnto (← orInvalid (o.setFlag name)) rest
        else
          match rest with
          | value :: rest =>
            if isValue value then do parseOnto (← orInvalid (o.set name value)) rest
            else .error .invalid
          | [] => .error .invalid
    | '-' :: 'h' :: _ => .error .help
    | _ => .error .invalid

def parse (args : List String) : Except Refusal Options := parseOnto {} args

def usage : List String :=
  ["Builds a BVH over a triangle mesh and traces random rays against it",
    "",
    "  --obj <FILE>           Wavefront object file, random triangles without it",
    "  --triangles <COUNT>    Number of random triangles",
    "  --rays <COUNT>         Number of random rays",
    "  --strategy <STRATEGY>  sequential or parallel",
    "  --threads <COUNT>      Number of threads",
    "  --bins <COUNT>         Bins along each axis of a parallel build",
    "  --validate             Check the tree",
    "  --print-tree           List the tree",
    "  --seed <SEED>          Seed of the random numbers"]

/-! ## Runs -/

inductive Failure where
  | mesh (cause : MeshError)
  | build (cause : BuildError)
  | invalidTree (cause : ValidityError)
  | fault (cause : Fault)

def Failure.exitCode : Failure → UInt32
  | fault _ | build (.interrupted _) | invalidTree (.interrupted _) => 101
  | _ => 1

def Failure.message : Failure → String
  | mesh cause => "Failed to load the mesh" ++ (cause.message?.map (": " ++ ·)).getD ""
  | build cause => (cause.message?).getD "The build was interrupted"
  | invalidTree cause => cause.message
  | fault cause => (cause.message?).getD "The run was interrupted"

structure Scene where
  source : TriangleSource
  generator : Xoshiro

def Options.soupSize (o : Options) : Nat := o.triangles.getD 100000

def Options.scene (o : Options) (bytes? : Option ByteArray) : Except Failure Scene := do
  let generator := Xoshiro.ofSeed (o.seed.getD 0).toUInt64
  match o.obj with
  | some _ =>
    let mesh ← (Wavefront.meshOfBytes bytes?).mapError .mesh
    return ⟨mesh.source, generator⟩
  | none =>
    let extent := Scalar.cubeRootOfCount o.soupSize * 2
    let (soup, generator) ← (Draw.soup o.soupSize extent 1 generator).mapError .fault
    return ⟨.ofArray soup.toArray, generator⟩

def Options.settings (o : Options) : Settings where
  strategy := o.strategy.getD .binned
  binCount := o.bins.getD 16

def Options.build (o : Options) (scene : Scene) : Except Failure Tree :=
  (Tree.build scene.source o.settings).mapError .build

def Options.inspect (o : Options) (scene : Scene) (tree : Tree) : Except Failure (List String) := do
  if o.validate then (tree.validate scene.source).mapError .invalidTree
  if o.printTree then
    return tree.outlineHeader :: (← tree.outline.mapError .fault).map Outline.Line.text
  else return []

structure Traced where
  rays : Nat
  closest : Nat
  within : Nat
  distance : Float32

def countHits (tree : Tree) (distance : Float32) :
    List Ray → TraversalStack → Traced → Except Fault Traced
  | [], _, traced => .ok traced
  | ray :: rest, stack, traced => do
    let (closest, stack) ← tree.closestHit? ray Scalar.infinity stack
    let (any, stack) ← tree.anyHit ray distance stack
    countHits tree distance rest stack
      { traced with
        closest := traced.closest + if closest.isSome then 1 else 0
        within := traced.within + if any then 1 else 0 }

def Options.trace (o : Options) (scene : Scene) (tree : Tree) : Except Failure Traced := do
  let rays := o.rays.getD 1000000
  let size := tree.bounds.size
  let distance := (size.dot size).sqrt * 2
  let (rays, _) ← (Draw.rays rays tree.bounds scene.generator).mapError .fault
  (countHits tree distance rays {} ⟨rays.length, 0, 0, distance⟩).mapError .fault

def Traced.hits (t : Traced) : String :=
  s!"{t.closest} closest hits, {t.within} within {fixedText 1 t.distance}"

def Traced.text (t : Traced) (elapsed? : Option Duration) : String :=
  let time :=
    match elapsed? with
    | some elapsed =>
      let perSecond := t.rays * 1000000000 / max 1 elapsed.nanoseconds
      s!" in {elapsed.text 2} ({perSecond} rays/s)"
    | none => ""
  s!"Traced {t.rays} rays{time}: {t.hits}"

def Options.run (o : Options) (bytes? : Option ByteArray) : Except Failure (List String) := do
  let scene ← o.scene bytes?
  let tree ← o.build scene
  let listing ← o.inspect scene tree
  let traced ← o.trace scene tree
  return tree.statistics.report ++ listing ++ [traced.text none]

end BoxTree.CommandLine

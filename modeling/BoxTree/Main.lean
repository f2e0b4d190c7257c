import BoxTree.CommandLine

/-!
# The program

Reads the file of a run, prints what the run found, and takes the times of building and tracing.
-/

namespace BoxTree.CommandLine

def readFile? (path : String) : IO (Option ByteArray) := do
  try return some (← IO.FS.readBinFile path)
  catch _ => return none

def timed {α : Type} (value : Unit → α) : IO (α × Duration) := do
  let start ← IO.monoNanosNow
  let result ← IO.lazyPure value
  let stop ← IO.monoNanosNow
  return (result, ⟨stop - start⟩)

def printLines (lines : List String) : IO Unit := lines.forM IO.println

def runOptions (o : Options) : ExceptT Failure IO Unit := do
  let bytes? ←
    match o.obj with
    | some path => readFile? path
    | none => pure none
  let scene ← o.scene bytes?
  let (tree, buildTime) ← timed fun _ => o.build scene
  let tree ← tree
  printLines [tree.statistics.text buildTime]
  printLines (← o.inspect scene tree)
  let (traced, traceTime) ← timed fun _ => o.trace scene tree
  printLines [(← traced).text (some traceTime)]

def runProgram (args : List String) : IO UInt32 := do
  match parse args with
  | .error .help =>
    printLines usage
    return 0
  | .error .invalid =>
    IO.eprintln "Invalid arguments, see --help"
    return 2
  | .ok o =>
    match ← (runOptions o).run with
    | .ok _ => return 0
    | .error failure =>
      IO.eprintln s!"Error: {failure.message}"
      return failure.exitCode

end BoxTree.CommandLine

def main (args : List String) : IO UInt32 := BoxTree.CommandLine.runProgram args

import BoxTree.Decimal.Style
import BoxTree.Tree

/-!
# Outlines

Lists a tree from the root down, one line for each child and each batch.
-/

namespace BoxTree

/-- Coordinates are written with their shortest digits, whole ones with a zero after the point, and
with an exponent below a ten-thousandth and from ten to the sixteenth on. -/
def coordinateStyle : NumberStyle where
  leastPlain := -4
  mostPlain := 15
  wholeEnd := ".0"
  zero := "0.0"
  infinite := "inf"
  notANumber := "NaN"

namespace Outline

inductive Entry where
  | missing
  | inner (node : Nat) (box : Box)
  | leaf (batches : BatchRange) (box : Box)
  | batch (triangles : Batch)

structure Line where
  depth : Nat
  entry : Entry

def bracketed (texts : List String) : String := "[" ++ String.intercalate ", " texts ++ "]"

def pointText (p : Vec3 Float32) : String := bracketed (p.toList.map coordinateStyle.text)

def boxText (b : Box) : String := pointText b.lower ++ "-" ++ pointText b.upper

def Entry.text : Entry → String
  | missing => "- <EMPTY>"
  | inner node box => s!"- I{node}: {boxText box}"
  | leaf batches box => s!"- L{batches.first}+{batches.count}: {boxText box}"
  | batch triangles => "    " ++ bracketed (triangles.toList.map toString)

def Line.text (line : Line) : String :=
  String.ofList (List.replicate (2 * line.depth) ' ') ++ line.entry.text

end Outline

namespace Tree
open Outline

def outlineFrom (t : Tree) : (nodes : Nat) → (depth : Nat) → Child → Except Fault (List Line)
  | nodes, depth, child =>
    match child.link.target with
    | .missing => .ok [⟨depth, .missing⟩]
    | .leaf range => do
      let batches ← range.toList.mapM fun batch =>
        match t.batches[batch]? with
        | some triangles => Except.ok (Line.mk depth (.batch triangles))
        | none => .error .outOfBounds
      return ⟨depth, .leaf range child.box⟩ :: batches
    | .inner index =>
      match t.nodes[index]?, nodes with
      | none, _ => .error .outOfBounds
      | some _, 0 => .error .endless
      | some node, nodes + 1 => do
        let left ← outlineFrom t nodes (depth + 1) node.left
        let right ← outlineFrom t nodes (depth + 1) node.right
        return ⟨depth, .inner index child.box⟩ :: left ++ right

def outline (t : Tree) : Except Fault (List Line) :=
  t.outlineFrom t.nodes.size 0 ⟨t.bounds, ⟨0⟩⟩

def outlineHeader (t : Tree) : String :=
  s!"{t.triangleCount} triangles, {t.nodes.size} nodes, {t.leafCount} leaves"

def outlineText (t : Tree) (lines : List Line) : String :=
  String.join ((t.outlineHeader :: lines.map Line.text).map (· ++ "\n"))

end Tree

end BoxTree

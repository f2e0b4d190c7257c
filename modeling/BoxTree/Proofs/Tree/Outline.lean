import BoxTree.Proofs.Lines
import BoxTree.Proofs.Tree.Listing
import BoxTree.Proofs.Tree.Tally

/-!
# Outlines of trees

The text of an outline has one line for each thing that is listed, behind a header. A line shows by its first
characters what kind of thing that is, by its numbers which one, and by its indentation how deep in the tree.
-/

namespace BoxTree
open Outline

def marked (mark line : String) : Bool := mark.toList.isPrefixOf (line.toList.dropWhile (· == ' '))

/-- How many lines of a text show a mark, the header apart. -/
def countMarked (mark text : String) : Nat := (linesOf text).tail.countP (marked mark)

def indentation (line : String) : Nat := (line.toList.takeWhile (· == ' ')).length

namespace Outline

/-! ## Single lines -/

theorem oneLine_bracketed {texts : List String} (plain : ∀ text ∈ texts, OneLine text) :
    OneLine (bracketed texts) :=
  ((show OneLine "[" by decide).append (.intercalate (by decide) plain)).append (by decide)

theorem oneLine_pointText (p : Vec3 Float32) : OneLine (pointText p) := by
  apply oneLine_bracketed
  rw [List.forall_mem_map]
  intro coordinate _
  exact NumberStyle.oneLine_text (by decide) (by decide) (by decide) (by decide) coordinate

theorem oneLine_boxText (b : Box) : OneLine (boxText b) :=
  ((oneLine_pointText b.lower).append (by decide)).append (oneLine_pointText b.upper)

namespace Entry

def mark : Entry → String
  | missing => "- <EMPTY>"
  | inner _ _ => "- I"
  | leaf _ _ => "- L"
  | batch _ => "["

def margin : Entry → Nat
  | batch _ => 4
  | _ => 0

def isMissing : Entry → Bool
  | missing => true
  | _ => false

/-- Some numbers begin with those of an entry, and go on with those of its box if it has one. -/
def ShownBy (numbers : List Nat) : Entry → Prop
  | missing => numbers = []
  | inner node _ => [node] <+: numbers
  | leaf range _ => [range.first, range.count] <+: numbers
  | batch triangles => numbers = triangles.toList

theorem oneLine_text (e : Entry) : OneLine e.text := by
  cases e with
  | missing => decide
  | inner node box =>
      exact (((show OneLine "- I" by decide).append (.nat node)).append (by decide)).append (oneLine_boxText box)
  | leaf range box =>
      exact (((((show OneLine "- L" by decide).append (.nat range.first)).append (by decide)).append
        (.nat range.count)).append (by decide)).append (oneLine_boxText box)
  | batch triangles =>
      apply (show OneLine "    " by decide).append
      apply oneLine_bracketed
      rw [List.forall_mem_map]
      exact fun triangle _ => .nat triangle

theorem toList_text (e : Entry) :
    ∃ rest, e.text.toList = List.replicate e.margin ' ' ++ (e.mark.toList ++ rest) := by
  cases e with
  | missing => exact ⟨[], rfl⟩
  | inner node box =>
      refine ⟨(toString node ++ (": " ++ boxText box)).toList, ?_⟩
      rw [← String.toList_append, ← String.append_assoc, ← String.append_assoc]
      rfl
  | leaf range box =>
      refine ⟨(toString range.first ++ ("+" ++ (toString range.count ++ (": " ++ boxText box)))).toList, ?_⟩
      rw [← String.toList_append, ← String.append_assoc, ← String.append_assoc, ← String.append_assoc,
        ← String.append_assoc]
      rfl
  | batch triangles =>
      refine ⟨(String.intercalate ", " (triangles.toList.map toString) ++ "]").toList, ?_⟩
      rw [← String.toList_append, ← String.append_assoc]
      exact String.toList_append

theorem shownBy_text (e : Entry) : e.ShownBy (numbersIn e.text) := by
  cases e with
  | missing => exact (by decide : numbersIn "- <EMPTY>" = [])
  | inner node box =>
      have numbers : numbersIn (inner node box).text = node :: numbersIn (boxText box) := by
        change numbersIn ("- I" ++ toString node ++ ": " ++ boxText box) = _
        rw [String.append_assoc, String.append_assoc, numbersIn_append (by decide),
          numbersIn_nat node (by decide) (by decide)]
      rw [numbers]
      exact List.prefix_append [node] _
  | leaf range box =>
      have numbers : numbersIn (leaf range box).text = range.first :: range.count :: numbersIn (boxText box) := by
        change numbersIn ("- L" ++ toString range.first ++ "+" ++ toString range.count ++ ": " ++ boxText box) = _
        rw [String.append_assoc, String.append_assoc, String.append_assoc, String.append_assoc,
          numbersIn_append (by decide), numbersIn_nat range.first (by decide) (by decide),
          numbersIn_nat range.count (by decide) (by decide)]
      rw [numbers]
      exact List.prefix_append [range.first, range.count] _
  | batch triangles =>
      have numbers := numbersIn_intercalate triangles.toList ""
      change numbersIn ("    " ++ ("[" ++ String.intercalate ", " (triangles.toList.map toString) ++ "]")) = _
      rw [numbersIn_append (by decide), String.append_assoc, numbersIn_append (by decide)]
      exact numbers.trans (List.append_nil _)

end Entry

namespace Line

theorem oneLine_text (line : Line) : OneLine line.text := by
  refine .append (.ofList fun space => ?_) line.entry.oneLine_text
  cases List.eq_of_mem_replicate space

theorem toList_text (line : Line) :
    ∃ rest, line.text.toList =
      List.replicate (2 * line.depth + line.entry.margin) ' ' ++ (line.entry.mark.toList ++ rest) := by
  obtain ⟨rest, same⟩ := line.entry.toList_text
  refine ⟨rest, ?_⟩
  rw [Line.text, String.toList_append, String.toList_ofList, same, ← List.append_assoc,
    List.replicate_append_replicate]

theorem shownBy_text (line : Line) : line.entry.ShownBy (numbersIn line.text) := by
  have spaces : NoDigits (String.ofList (List.replicate (2 * line.depth) ' ')) := by
    rw [NoDigits, String.toList_ofList]
    intro c space
    rw [List.eq_of_mem_replicate space]
    rfl
  rw [Line.text, numbersIn_append spaces]
  exact line.entry.shownBy_text

theorem indentation_text (line : Line) : indentation line.text = 2 * line.depth + line.entry.margin := by
  obtain ⟨rest, same⟩ := line.toList_text
  rw [indentation, same, List.takeWhile_append_of_pos fun c space => by simp [List.eq_of_mem_replicate space],
    List.length_append, List.length_replicate]
  cases line.entry <;> simp [Entry.mark]

theorem marked_text (line : Line) :
    marked "- I" line.text = line.entry.node?.isSome ∧ marked "- L" line.text = line.entry.range?.isSome ∧
      marked "- <EMPTY>" line.text = line.entry.isMissing := by
  obtain ⟨rest, same⟩ := line.toList_text
  have shown : line.text.toList.dropWhile (· == ' ') = line.entry.mark.toList ++ rest := by
    rw [same, List.dropWhile_append_of_pos fun c space => by simp [List.eq_of_mem_replicate space]]
    cases line.entry <;> simp [Entry.mark]
  rw [marked, marked, marked, shown]
  cases line.entry <;> simp [Entry.mark, Entry.node?, Entry.range?, Entry.isMissing, List.isPrefixOf]

end Line

end Outline

namespace Tree

variable {t : Tree} {source : TriangleSource} {root : Subtree} {lines : List Line}

/-! ## The whole text -/

theorem linesOf_outlineText (t : Tree) (lines : List Line) :
    linesOf (t.outlineText lines) = t.outlineHeader :: lines.map Line.text := by
  apply linesOf_join
  rw [List.forall_mem_cons, List.forall_mem_map]
  refine ⟨?_, fun line _ => line.oneLine_text⟩
  exact (((((OneLine.nat t.triangleCount).append (by decide)).append (.nat t.nodes.size)).append
    (by decide)).append (.nat t.leafCount)).append (by decide)

theorem numbersIn_outlineHeader (t : Tree) :
    numbersIn t.outlineHeader = [t.triangleCount, t.nodes.size, t.leafCount] := by
  change numbersIn (toString t.triangleCount ++ " triangles, " ++ toString t.nodes.size ++ " nodes, " ++
    toString t.leafCount ++ (" leaves" ++ "")) = _
  simp only [String.append_assoc]
  rw [numbersIn_nat t.triangleCount (by decide) (by decide), numbersIn_nat t.nodes.size (by decide) (by decide),
    numbersIn_nat t.leafCount (by decide) (by decide)]
  rfl

theorem countMarked_outlineText (t : Tree) (lines : List Line) :
    countMarked "- I" (t.outlineText lines) = (lines.filterMap (·.entry.node?)).length ∧
      countMarked "- L" (t.outlineText lines) = (lines.filterMap (·.entry.range?)).length ∧
      countMarked "- <EMPTY>" (t.outlineText lines) = lines.countP (·.entry.isMissing) := by
  have counts (mark : String) :
      countMarked mark (t.outlineText lines) = lines.countP fun line => marked mark line.text := by
    rw [countMarked, linesOf_outlineText, List.tail_cons, List.countP_map]
    rfl
  rw [counts, counts, counts, List.length_filterMap_eq_countP, List.length_filterMap_eq_countP]
  simp only [Line.marked_text, and_self]

/-- A valid tree has an outline, which lists the tree once and shows as many nodes, leaves and missing children
as the tree has. The counters of a built tree say the same of its nodes and leaves. -/
theorem outline_lists (t : Tree) (source : TriangleSource) :
    (t.validate source = .ok () →
      ∃ root lines, t.outline = .ok lines ∧ t.Lists root lines ∧
        linesOf (t.outlineText lines) = t.outlineHeader :: lines.map Line.text ∧
        numbersIn t.outlineHeader = [t.triangleCount, t.nodes.size, t.leafCount] ∧
        (∀ line ∈ lines, indentation line.text = 2 * line.depth + line.entry.margin ∧
          line.entry.ShownBy (numbersIn line.text)) ∧
        countMarked "- I" (t.outlineText lines) = t.nodes.size ∧
        countMarked "- L" (t.outlineText lines) = t.children.countP (·.entry.range?.isSome) ∧
        countMarked "- <EMPTY>" (t.outlineText lines) = t.children.countP (·.entry.isMissing)) ∧
    ∀ (select : Binned.Selection source.count) (settings : Settings), select.Lawful →
      buildSelecting source select settings = .ok t →
        ∃ lines, t.outline = .ok lines ∧ countMarked "- I" (t.outlineText lines) = t.nodeCount ∧
          countMarked "- L" (t.outlineText lines) = t.leafCount := by
  constructor
  · intro accepted
    obtain ⟨_, root, shaped⟩ := ((settles_validate t source).ok_iff ()).1 accepted
    obtain ⟨outlined, lists⟩ := lists_of_shaped shaped
    obtain ⟨nodes, leaves, missing⟩ := t.countMarked_outlineText (root.listing 0 t.bounds)
    refine ⟨root, _, outlined, lists, t.linesOf_outlineText _, t.numbersIn_outlineHeader,
      fun line _ => ⟨line.indentation_text, line.shownBy_text⟩, ?_, ?_, ?_⟩
    · rw [nodes, lists.nodes.length_eq, List.length_range]
    · rw [leaves, List.length_filterMap_eq_countP]
      exact lists.countP_eq (·.range?.isSome) fun _ => rfl
    · rw [missing]
      exact lists.countP_eq Entry.isMissing fun _ => rfl
  · intro select settings lawful built
    obtain ⟨⟨_, root, shaped⟩, _⟩ := built_ok lawful built
    obtain ⟨_, tally⟩ := tally_of_built lawful built
    obtain rfl := tally.unfolds.unique shaped.unfolds
    obtain ⟨outlined, lists⟩ := lists_of_shaped shaped
    obtain ⟨nodes, leaves, _⟩ := t.countMarked_outlineText (root.listing 0 t.bounds)
    refine ⟨_, outlined, ?_, ?_⟩
    · rw [nodes, lists.nodes.length_eq, List.length_range]
      rfl
    · rw [leaves, Subtree.length_range?_listing]
      exact tally.leafCount.symm

example : (Tree.outline ⟨.empty, #[.empty], #[], #[], 0, {}⟩).toOption.map (List.map Line.text) =
    some ["- I0: [inf, inf, inf]-[-inf, -inf, -inf]", "  - <EMPTY>", "  - <EMPTY>"] := by
  decide +kernel

theorem outline_lists_floors :
    ∃ t root lines, buildSelecting floors Binned.Selection.sorted (leafEach .binned) = .ok t ∧
      t.validate floors = .ok () ∧ t.outline = .ok lines ∧ t.Lists root lines ∧
        lines.map (fun line => (line.depth, line.entry.mark)) = [(0, "- I"), (1, "- L"), (1, "["), (1, "- I"),
          (2, "- L"), (2, "["), (2, "- L"), (2, "[")] ∧
          (∀ line ∈ lines, line.entry.ShownBy (numbersIn line.text)) ∧
            countMarked "- I" (t.outlineText lines) = 2 ∧ countMarked "- L" (t.outlineText lines) = 3 := by
  obtain ⟨t, built, shape⟩ := exists_ok_of_any
    (buildSelecting floors Binned.Selection.sorted (leafEach .binned))
    (fun t => decide (t.nodeCount = 2) && decide (t.leafCount = 3) && t.outline.toOption.any fun (lines : List Line) =>
      decide (lines.map (fun line => (line.depth, line.entry.mark)) = [(0, "- I"), (1, "- L"), (1, "["),
        (1, "- I"), (2, "- L"), (2, "["), (2, "- L"), (2, "[")])) (by decide +kernel)
  simp only [Bool.and_eq_true, decide_eq_true_eq] at shape
  obtain ⟨⟨nodeCount, leafCount⟩, shape⟩ := shape
  obtain ⟨wellFormed, _⟩ := built_ok Binned.Selection.sorted_lawful built
  have accepted : t.validate floors = .ok () := ((settles_validate t floors).ok_iff ()).2 wellFormed
  obtain ⟨root, lines, outlined, lists, _, _, each, _⟩ := (outline_lists t floors).1 accepted
  obtain ⟨_, again, nodes, leaves⟩ := (outline_lists t floors).2 _ _ Binned.Selection.sorted_lawful built
  cases again.symm.trans outlined
  rw [outlined] at shape
  exact ⟨t, root, lines, built, accepted, outlined, lists, of_decide_eq_true shape,
    fun line member => (each line member).2, nodes.trans nodeCount, leaves.trans leafCount⟩

end Tree

end BoxTree

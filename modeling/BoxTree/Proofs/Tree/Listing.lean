import BoxTree.Proofs.Except
import BoxTree.Proofs.Tree.Validity
import BoxTree.Tree.Outline

/-!
# Listings of trees

The outline of a tree lists what is met on a walk from its root, a node before its children, the left child
before the right one, and a leaf before its batches. If the tree is valid, the walk comes to every child of
every node and to every batch once.
-/

namespace BoxTree
open Outline

namespace Outline.Entry

def node? : Entry → Option Nat
  | inner node _ => some node
  | _ => none

def range? : Entry → Option BatchRange
  | leaf range _ => some range
  | _ => none

def batch? : Entry → Option Batch
  | batch triangles => some triangles
  | _ => none

end Outline.Entry

def Child.entry (child : Child) : Entry :=
  match child.link.target with
  | .missing => .missing
  | .leaf range => .leaf range child.box
  | .inner node => .inner node child.box

def Node.children (n : Node) : List Child := [n.left, n.right]

namespace Tree

def top (t : Tree) : Child := ⟨t.bounds, ⟨0⟩⟩

theorem target_top (t : Tree) : t.top.link.target = .inner 0 :=
  show Link.target ⟨0⟩ = .inner 0 by decide

def children (t : Tree) : List Child := t.top :: t.nodes.toList.flatMap Node.children

end Tree

namespace Subtree

def listing : (depth : Nat) → Box → Subtree → List Line
  | depth, _, missing => [⟨depth, .missing⟩]
  | depth, box, leaf range content => ⟨depth, .leaf range box⟩ :: content.map fun batch => ⟨depth, .batch batch⟩
  | depth, box, inner index leftBox left rightBox right =>
    ⟨depth, .inner index box⟩ ::
      (left.listing (depth + 1) leftBox ++ right.listing (depth + 1) rightBox)

/-! ## Parts of a listing -/

theorem filterMap_node?_listing (s : Subtree) (depth : Nat) (box : Box) :
    (s.listing depth box).filterMap (·.entry.node?) = s.nodes := by
  induction s generalizing depth box with
  | missing => rfl
  | leaf range content => simp [listing, Entry.node?, List.filterMap_map, nodes]
  | inner index leftBox left rightBox right ihLeft ihRight =>
      change index :: (left.listing _ _ ++ right.listing _ _).filterMap (·.entry.node?) = _
      rw [List.filterMap_append, ihLeft, ihRight, nodes]

theorem flatMap_range?_listing (s : Subtree) (depth : Nat) (box : Box) :
    ((s.listing depth box).filterMap (·.entry.range?)).flatMap BatchRange.toList = s.batches := by
  induction s generalizing depth box with
  | missing => rfl
  | leaf range content => simp [listing, Entry.range?, List.filterMap_map, batches]
  | inner index leftBox left rightBox right ihLeft ihRight =>
      rw [listing, List.filterMap_cons_none rfl, List.filterMap_append, List.flatMap_append, ihLeft, ihRight,
        batches]

theorem length_range?_listing (s : Subtree) (depth : Nat) (box : Box) :
    ((s.listing depth box).filterMap (·.entry.range?)).length = s.leaves.length := by
  induction s generalizing depth box with
  | missing => rfl
  | leaf range content => simp [listing, Entry.range?, List.filterMap_map, leaves]
  | inner index leftBox left rightBox right ihLeft ihRight =>
      rw [listing, List.filterMap_cons_none rfl, List.filterMap_append, List.length_append, ihLeft, ihRight,
        leaves, List.length_append]

end Subtree

theorem filterMap_of_map {α β : Type} {f : α → Option β} {xs : List α} {ys : List β}
    (same : xs.map f = ys.map some) : xs.filterMap f = ys := by
  have found := congrArg (List.filterMap id) same
  rwa [List.filterMap_map, List.filterMap_map, Function.id_comp, Function.id_comp, List.filterMap_some] at found

theorem filterMap_range_size {α : Type} (a : Array α) : (List.range a.size).filterMap (a[·]?) = a.toList := by
  apply filterMap_of_map
  apply List.ext_getElem
  · simp
  · intro i bound _
    rw [List.length_map, List.length_range] at bound
    simp [bound]

section

variable {nodes : Array Node} {batches : Array Batch} {target : Target} {s : Subtree}

theorem Unfolds.filterMap_batch?_listing (unfolds : Unfolds nodes batches target s) (depth : Nat) (box : Box) :
    (s.listing depth box).filterMap (·.entry.batch?) = s.batches.filterMap (batches[·]?) := by
  induction unfolds generalizing depth box with
  | missing => rfl
  | leaf inside =>
      rw [Subtree.batches, filterMap_of_map inside]
      simp [Subtree.listing, Entry.batch?, List.filterMap_map]
  | inner there _ _ ihLeft ihRight =>
      rw [Subtree.listing, List.filterMap_cons_none rfl, List.filterMap_append, ihLeft, ihRight,
        Subtree.batches, List.filterMap_append]

theorem Unfolds.entries_listing (unfolds : Unfolds nodes batches target s) {child : Child}
    (refers : child.link.target = target) (depth : Nat) :
    (((s.listing depth child.box).map Line.entry).filter (·.batch?.isNone)).Perm
      (child.entry :: ((s.nodes.filterMap (nodes[·]?)).flatMap Node.children).map Child.entry) := by
  induction unfolds generalizing child depth with
  | missing =>
      rw [Child.entry, refers]
      exact .refl _
  | leaf inside =>
      rw [Child.entry, refers]
      simp [Subtree.listing, Entry.batch?, Subtree.nodes]
  | @inner index node left right there _ _ ihLeft ihRight =>
      -- The right child is listed after everything below the left one, but comes right after it in its node.
      have both := (ihLeft rfl (depth + 1)).append (ihRight rfl (depth + 1))
      rw [← List.filter_append] at both
      rw [Child.entry, refers, Subtree.listing, List.map_cons, List.filter_cons_of_pos rfl, Subtree.nodes,
        List.filterMap_cons_some there, List.filterMap_append, List.flatMap_cons, List.flatMap_append,
        List.map_append, List.map_append, List.map_append]
      exact .cons _ (both.trans (.cons _ List.perm_middle))

end

namespace Tree

variable {t : Tree} {source : TriangleSource} {root : Subtree}

theorem outlineFrom_eq {target : Target} {s : Subtree} (unfolds : Unfolds t.nodes t.batches target s)
    {child : Child} (refers : child.link.target = target) {levels : Nat} (enough : s.nodes.length ≤ levels)
    (depth : Nat) : t.outlineFrom levels depth child = .ok (s.listing depth child.box) := by
  induction unfolds generalizing child levels depth with
  | missing =>
      unfold outlineFrom
      rw [refers]
      rfl
  | leaf inside =>
      unfold outlineFrom
      rw [refers]
      dsimp only
      rw [mapM_of_map (g := fun batch => Line.mk depth (.batch batch)) inside]
      · rfl
      · intro batch triangles found
        simp only [found]
  | inner there _ _ ihLeft ihRight =>
      cases levels with
      | zero => cases enough
      | succ levels =>
          rw [Subtree.nodes, List.length_cons, List.length_append] at enough
          unfold outlineFrom
          rw [refers]
          simp only [there]
          rw [ihLeft rfl (by omega), ihRight rfl (by omega)]
          rfl

structure Lists (t : Tree) (root : Subtree) (lines : List Line) : Prop where
  unfolds : Unfolds t.nodes t.batches (.inner 0) root
  walk : lines = root.listing 0 t.bounds
  nodes : (lines.filterMap (·.entry.node?)).Perm (List.range t.nodes.size)
  ranges : ((lines.filterMap (·.entry.range?)).flatMap BatchRange.toList).Perm (List.range t.batches.size)
  batches : (lines.filterMap (·.entry.batch?)).Perm t.batches.toList
  children : ((lines.map Line.entry).filter (·.batch?.isNone)).Perm (t.children.map Child.entry)

theorem lists_of_shaped (shaped : t.Shaped source root) :
    t.outline = .ok (root.listing 0 t.bounds) ∧ t.Lists root (root.listing 0 t.bounds) := by
  have nodes : (root.nodes.filterMap (t.nodes[·]?)).Perm t.nodes.toList := by
    rw [← filterMap_range_size]
    exact shaped.nodes.filterMap _
  refine ⟨?_, shaped.unfolds, rfl, ?_, ?_, ?_, ?_⟩
  · apply outlineFrom_eq shaped.unfolds t.target_top
    rw [shaped.nodes.length_eq, List.length_range]
  · rw [Subtree.filterMap_node?_listing]
    exact shaped.nodes
  · rw [Subtree.flatMap_range?_listing]
    exact shaped.batches
  · rw [shaped.unfolds.filterMap_batch?_listing, ← filterMap_range_size]
    exact shaped.batches.filterMap _
  · exact (shaped.unfolds.entries_listing t.target_top 0).trans (.cons _ ((nodes.flatMap_right _).map _))

theorem Lists.countP_eq {lines : List Line} (lists : t.Lists root lines) (p : Entry → Bool)
    (none : ∀ triangles, p (.batch triangles) = false) :
    lines.countP (fun line => p line.entry) = t.children.countP fun child => p child.entry := by
  have counts := lists.children.countP_eq p
  rw [List.countP_filter, List.countP_map, List.countP_map] at counts
  rw [← Function.comp_def p Child.entry, ← counts]
  congr 1
  funext line
  cases kind : line.entry <;> simp [kind, Entry.batch?, none]

end Tree

end BoxTree

import BoxTree.Proofs.Build.BinnedShape
import BoxTree.Proofs.Build.ExactShape
import BoxTree.Proofs.Tree.Build

/-!
# Grown trees

A built tree has what was grown from all triangles of its source, or a single node without children
where the source has none.
-/

namespace BoxTree.Tree

variable {source : TriangleSource} {select : Binned.Selection source.count} {s : Settings} {a : Arena}
  {t : Tree} {root : Subtree}

theorem arena_of_none (none : source.count = 0) : arena source select s = .ok .bare := by
  rw [arena, if_pos none]
  rfl

theorem arena_grown (lawful : select.Lawful) (valid : s.Valid) (some : 1 ≤ source.count)
    (few : source.count ≤ maxTriangles) :
    ∃ a root shape counters, arena source select s = .ok a ∧
      a.FullyGrown source (fun _ => True) root shape counters := by
  unfold arena
  rw [if_neg (Nat.one_le_iff_ne_zero.1 some)]
  cases s.strategy with
  | exact =>
      obtain ⟨a, root, shape, counters, built, grown, _⟩ := Exact.buildAll_grown valid some few
      exact ⟨a, root, shape, counters, built, grown.anyOrder⟩
  | binned =>
      obtain ⟨a, root, shape, counters, built, grown, _⟩ := Binned.buildAll_grown lawful valid some few
      exact ⟨a, root, shape, counters, built, grown⟩

structure Stores (t : Tree) (source : TriangleSource) (a : Arena) : Prop where
  nodes : t.nodes = a.nodes
  batches : t.batches = a.batches
  bounds : t.bounds = source.boundsOf (List.range source.count)
  statistics : t.statistics =
    { a.statistics with triangleCount := source.count, nodeCount := a.nodes.size }

theorem Stores.unfolds (stores : t.Stores source a) (finished : a.Finished source root) :
    Unfolds t.nodes t.batches (.inner 0) root := by
  rw [stores.nodes, stores.batches]
  exact finished.unfolds

theorem Stores.mem_nodes (stores : t.Stores source a) (finished : a.Finished source root) {i : Nat}
    {node : Node} (there : t.nodes[i]? = some node) : i ∈ root.nodes := by
  rw [stores.nodes] at there
  rw [finished.nodes.mem_iff, List.mem_range]
  exact (Array.getElem?_eq_some_iff.1 there).1

theorem stores_of_ofArena (made : ofArena source a = .ok t) : t.Stores source a := by
  obtain ⟨triangles, _, same⟩ := bind_eq_ok.1 made
  obtain rfl := Except.ok.inj same
  exact ⟨rfl, rfl, Primitives.bounds_ofSource source, rfl⟩

theorem built_stores (lawful : select.Lawful) (valid : s.validate = .ok ())
    (few : source.count ≤ maxTriangles) :
    ∃ t a, buildSelecting source select s = .ok t ∧ arena source select s = .ok a ∧
      t.Stores source a := by
  obtain ⟨t, built, _⟩ := buildSelecting_ok lawful (Settings.validate_eq_ok.1 valid) few
  obtain ⟨_, _, a, made, gathered⟩ := buildSelecting_eq_ok built
  exact ⟨t, a, built, made, stores_of_ofArena gathered⟩

end BoxTree.Tree

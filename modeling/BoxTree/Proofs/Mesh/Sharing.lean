import BoxTree.Mesh.Wavefront
import BoxTree.Proofs.Scalar.Narrowing

/-!
# Shared vertices

The mesh of an object file has the triangles of the file one after the other, and the positions of the vertices
that they use, each one once and in the order of first use.
-/

namespace BoxTree

/-! ## First occurrences -/

section
variable {α : Type} [DecidableEq α]

theorem eraseDups_concat (xs : List α) (a : α) :
    (xs ++ [a]).eraseDups = if a ∈ xs then xs.eraseDups else xs.eraseDups ++ [a] := by
  rw [List.eraseDups_append]
  by_cases member : a ∈ xs
  · simp [List.removeAll, member]
  · simp [List.removeAll, member, List.eraseDups_cons]

theorem eraseDups_starts (xs ys : List α) : xs.eraseDups <+: (xs ++ ys).eraseDups := by
  rw [List.eraseDups_append]
  exact List.prefix_append _ _

end

namespace Mesh

end Mesh

namespace Wavefront

structure FileVertex (objects : List Object) where
  object : Fin objects.length
  index : Fin (objects.get object).vertexCount
deriving DecidableEq

variable {objects : List Object}

def FileVertex.position (v : FileVertex objects) : Vec3 Float32 :=
  ((objects.get v.object).vertices.get v.index).map Scalar.Double.toSingle

def trianglesOf (k : Fin objects.length) : List (Triangle (FileVertex objects)) :=
  (objects.get k).triangles.map (Triangle.map (FileVertex.mk k))

def used (triangles : List (Triangle (FileVertex objects))) : List (FileVertex objects) :=
  (triangles.flatMap Triangle.toList).eraseDups

/-! ## Numbering vertices -/

/-- What is known after some vertices were used, the last ones of an object: their positions, and the numbers
of those that belong to the object. -/
structure Numbers (k : Fin objects.length) (seen : List (FileVertex objects))
    (positions : Array (Vec3 Float32))
    (numbers : Vector (Option Nat) (objects.get k).vertexCount) : Prop where
  positions : positions.toList = seen.eraseDups.map FileVertex.position
  numbers : ∀ i, numbers.get i =
    if ⟨k, i⟩ ∈ seen then some (seen.eraseDups.idxOf ⟨k, i⟩) else none

section
variable {k : Fin objects.length} {seen : List (FileVertex objects)}
  {positions : Array (Vec3 Float32)} {numbers : Vector (Option Nat) (objects.get k).vertexCount}

theorem Numbers.size (known : Numbers k seen positions numbers) :
    positions.size = seen.eraseDups.length := by
  rw [← Array.length_toList, known.positions, List.length_map]

theorem get_set {n : Nat} {α : Type} (v : Vector α n) (i j : Fin n) (a : α) :
    (v.set i a i.isLt).get j = if i = j then a else v.get j := by
  simp only [Vector.get_eq_getElem, Vector.getElem_set, Fin.ext_iff]

theorem Numbers.next (known : Numbers k seen positions numbers)
    (i : Fin (objects.get k).vertexCount) :
    (numberVertex (objects.get k) positions numbers i).1 =
        (seen ++ [FileVertex.mk k i]).eraseDups.idxOf (FileVertex.mk k i) % 0x100000000 ∧
      Numbers k (seen ++ [FileVertex.mk k i]) (numberVertex (objects.get k) positions numbers i).2.1
        (numberVertex (objects.get k) positions numbers i).2.2 := by
  have kept := eraseDups_starts seen [FileVertex.mk k i]
  have number : (numbers.get i).getD positions.size =
      (seen ++ [FileVertex.mk k i]).eraseDups.idxOf (FileVertex.mk k i) := by
    rw [known.numbers, known.size, eraseDups_concat]
    split_ifs with member
    · rfl
    · rw [List.idxOf_append, if_neg fun found => member (List.mem_eraseDups.1 found)]
      simp
  refine ⟨congrArg (· % 0x100000000) number, ?_, fun j => ?_⟩
  · simp only [numberVertex, known.numbers, known.size]
    rw [eraseDups_concat]
    by_cases member : FileVertex.mk k i ∈ seen
    · have less := List.idxOf_lt_length_of_mem (List.mem_eraseDups.2 member)
      simp only [if_pos member, Option.getD_some, if_pos less, known.positions]
    · simp only [if_neg member, Option.getD_none, if_neg (lt_irrefl _), Array.toList_push, known.positions,
        List.map_append]
      rfl
  · change (numbers.set i (some ((numbers.get i).getD positions.size)) i.isLt).get j = _
    rw [get_set, number]
    by_cases same : i = j
    · subst same
      rw [if_pos rfl, if_pos (List.mem_append_right _ (List.mem_singleton_self _))]
    · have others : FileVertex.mk k j ∈ seen ++ [FileVertex.mk k i] ↔ FileVertex.mk k j ∈ seen := by
        rw [List.mem_append, List.mem_singleton, or_iff_left]
        rintro ⟨⟩
        exact same rfl
      rw [if_neg same, known.numbers]
      simp only [others]
      split_ifs with member
      · rw [kept.idxOf_eq_of_mem (List.mem_eraseDups.2 member)]
      · rfl

theorem Numbers.corners (known : Numbers k seen positions numbers)
    (t : Triangle (Fin (objects.get k).vertexCount)) :
    let first := numberVertex (objects.get k) positions numbers t.a
    let second := numberVertex (objects.get k) first.2.1 first.2.2 t.b
    let third := numberVertex (objects.get k) second.2.1 second.2.2 t.c
    (⟨first.1, second.1, third.1⟩ : Triangle Nat) = (t.map (FileVertex.mk k)).map (fun v =>
        (seen ++ (t.map (FileVertex.mk k)).toList).eraseDups.idxOf v % 0x100000000) ∧
      Numbers k (seen ++ (t.map (FileVertex.mk k)).toList) third.2.1 third.2.2 := by
  have first := known.next t.a
  have second := first.2.next t.b
  have third := second.2.next t.c
  have corners : seen ++ (t.map (FileVertex.mk k)).toList =
      seen ++ [FileVertex.mk k t.a] ++ [FileVertex.mk k t.b] ++ [FileVertex.mk k t.c] := by
    simp [Triangle.toList, Triangle.map]
  have keptB := eraseDups_starts (seen ++ [FileVertex.mk k t.a] ++ [FileVertex.mk k t.b]) [FileVertex.mk k t.c]
  have keptA := (eraseDups_starts (seen ++ [FileVertex.mk k t.a]) [FileVertex.mk k t.b]).trans keptB
  rw [corners]
  refine ⟨?_, third.2⟩
  simp only [Triangle.map]
  rw [← keptA.idxOf_eq_of_mem (by simp), ← keptB.idxOf_eq_of_mem (by simp), first.1, second.1, third.1]

end

/-! ## Numbering triangles -/

theorem mem_used {triangles : List (Triangle (FileVertex objects))} {v : FileVertex objects} :
    v ∈ used triangles ↔ ∃ t ∈ triangles, v ∈ t.toList := by
  rw [used, List.mem_eraseDups, List.mem_flatMap]

structure Numbered (done : List (Triangle (FileVertex objects))) (all : Numbering) : Prop where
  positions : all.positions.toList = (used done).map FileVertex.position
  triangles : all.triangles.toList =
    done.map (Triangle.map fun v => (used done).idxOf v % 0x100000000)

variable {done : List (Triangle (FileVertex objects))} {all : Numbering}

theorem Numbered.push (before : Numbered done all) {t : Triangle (FileVertex objects)}
    {positions : Array (Vec3 Float32)}
    (longer : positions.toList = (used (done ++ [t])).map FileVertex.position) :
    Numbered (done ++ [t])
      ⟨positions, all.triangles.push (t.map fun v => (used (done ++ [t])).idxOf v % 0x100000000)⟩ where
  positions := longer
  triangles := by
    rw [Array.toList_push, before.triangles, List.map_append]
    congr 1
    refine List.map_congr_left fun old member => ?_
    have start : used done <+: used (done ++ [t]) := by
      rw [used, used, List.flatMap_append]
      exact eraseDups_starts _ _
    have same (v) (corner : v ∈ old.toList) : (used (done ++ [t])).idxOf v = (used done).idxOf v :=
      (start.idxOf_eq_of_mem (mem_used.2 ⟨old, member, corner⟩)).symm
    simp only [Triangle.toList, List.forall_mem_cons] at same
    obtain ⟨a, b, c, -⟩ := same
    simp only [Triangle.map, a, b, c]

theorem Numbered.addTriangles {k : Fin objects.length}
    {numbers : Vector (Option Nat) (objects.get k).vertexCount} (before : Numbered done all)
    (known : Numbers k (done.flatMap Triangle.toList) all.positions numbers)
    (triangles : List (Triangle (Fin (objects.get k).vertexCount))) :
    Numbered (done ++ triangles.map (Triangle.map (FileVertex.mk k)))
      (Numbering.addTriangles (objects.get k) triangles numbers all) := by
  induction triangles generalizing done all numbers with
  | nil => simpa [Numbering.addTriangles] using before
  | cons t rest ih =>
      obtain ⟨numbered, after⟩ := known.corners t
      have seen : done.flatMap Triangle.toList ++ (t.map (FileVertex.mk k)).toList =
          (done ++ [t.map (FileVertex.mk k)]).flatMap Triangle.toList := by
        rw [List.flatMap_append, List.flatMap_singleton]
      rw [seen] at numbered after
      have pushed := before.push after.positions
      rw [List.map_cons, ← List.singleton_append, ← List.append_assoc]
      rw [used, ← numbered] at pushed
      exact ih pushed after

/-- A square cut along a diagonal, with a line, and another object with a triangle. Its last vertex has
coordinates that are not those of any finite number in single precision. -/
def square : String :=
  "o square\nv 0 0 0\nv 1 0 0\nv 1 1 0\nv 0 1 0\nf 1 2 3\nf 1 3 4\nl 1 3\n" ++
    "o roof\nv 0 0 0\nv 1 1 0\nv 0.1 -0 1e39\nf 5 6 7\n"

end Wavefront

end BoxTree

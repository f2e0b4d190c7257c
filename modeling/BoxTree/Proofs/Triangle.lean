import BoxTree.Triangle.Intersection
import BoxTree.Proofs.BitSet

/-!
# Triangles in batches

A batch of four triangles reports for each of its lanes what the test of the single triangle reports,
and walks the lanes that are hit from the first to the last.
-/

namespace BoxTree

theorem Lanes.get_of_mapM? {α β : Type} {f : α → Option β} {v : Lanes α} {w : Lanes β}
    (mapped : v.mapM? f = some w) (i : Fin 4) : f (v.get i) = some (w.get i) := by
  simp only [mapM?, Option.bind_eq_bind, Option.bind_eq_some_iff, Option.pure_def,
    Option.some.injEq] at mapped
  obtain ⟨_, found0, _, found1, _, found2, _, found3, rfl⟩ := mapped
  match i with
  | 0 => exact found0
  | 1 => exact found1
  | 2 => exact found2
  | 3 => exact found3

def PlaneCrossing.lane (c : PlaneCrossing (Lanes Float32)) (i : Fin 4) : PlaneCrossing Float32 :=
  ⟨c.det.get i, c.distance.get i, c.u.get i, c.v.get i⟩

def PlaneCrossing.hit (c : PlaneCrossing Float32) : TriangleHit := ⟨c.distance, c.u, c.v⟩

namespace TriangleBatch

theorem lanes_eq (mask : Lanes Bool) : lanes mask = (List.finRange 4).filter mask.get := by
  have back : (fun i => if h : i < 4 then some (⟨i, h⟩ : Fin 4) else none) ∘ Fin.val = some := by
    funext lane
    exact dif_pos lane.isLt
  rw [lanes, Lanes.positions_bits, List.filterMap_map, back, List.filterMap_some]

theorem lane_crossings (ts : Lanes Facet) (ray : Ray) (i : Fin 4) :
    ((ofTriangles ts).crossings ray).lane i =
      PlaneCrossing.solve ray.origin ray.direction (ts.get i).a ((ts.get i).b - (ts.get i).a)
        ((ts.get i).c - (ts.get i).a) := by
  match i with
  | 0 => rfl
  | 1 => rfl
  | 2 => rfl
  | 3 => rfl

theorem get_mask (c : PlaneCrossing (Lanes Float32)) (i : Fin 4) :
    (mask c).get i = (c.lane i).accepted := by
  match i with
  | 0 => rfl
  | 1 => rfl
  | 2 => rfl
  | 3 => rfl

theorem intersect?_eq (ts : Lanes Facet) (ray : Ray) (i : Fin 4) :
    (ts.get i).intersect? ray =
      if (mask ((ofTriangles ts).crossings ray)).get i then
        some (hit ((ofTriangles ts).crossings ray) i)
      else none := by
  have same : hit ((ofTriangles ts).crossings ray) i = (((ofTriangles ts).crossings ray).lane i).hit := rfl
  rw [get_mask, same, lane_crossings]
  rfl

theorem mem_intersect {ts : Lanes Facet} {ray : Ray} {i : Fin 4} {hit : TriangleHit} :
    (i, hit) ∈ (ofTriangles ts).intersect ray ↔ (ts.get i).intersect? ray = some hit := by
  simp only [intersect, lanes_eq, List.mem_map, List.mem_filter, List.mem_finRange, true_and,
    intersect?_eq, Option.ite_none_right_eq_some, Option.some.injEq, Prod.mk.injEq]
  constructor
  · rintro ⟨_, accepted, rfl, rfl⟩
    exact ⟨accepted, rfl⟩
  · rintro ⟨accepted, rfl⟩
    exact ⟨i, accepted, rfl, rfl⟩

theorem isSome_intersect? (ts : Lanes Facet) (ray : Ray) (i : Fin 4) :
    ((ts.get i).intersect? ray).isSome = (mask ((ofTriangles ts).crossings ray)).get i := by
  rw [intersect?_eq]
  cases (mask ((ofTriangles ts).crossings ray)).get i <;> rfl

/-- The mask of a batch has the bits of the lanes whose triangles are hit, each lane holds the hit of its
triangle, and the walk over the mask goes through these lanes in their order. -/
theorem intersect_exact (ts : Lanes Facet) (ray : Ray) :
    let c := (ofTriangles ts).crossings ray
    (∀ i : Fin 4, (mask c).bits.toNat.testBit i = ((ts.get i).intersect? ray).isSome) ∧
    (∀ i : Fin 4, (ts.get i).intersect? ray =
      if (mask c).bits.toNat.testBit i then some (hit c i) else none) ∧
    BitSet.positions (mask c).bits =
      ((List.finRange 4).filter fun i => ((ts.get i).intersect? ray).isSome).map Fin.val ∧
    (ofTriangles ts).intersect ray =
      (List.finRange 4).filterMap fun i => ((ts.get i).intersect? ray).map (i, ·) := by
  intro c
  have bit (i : Fin 4) : (mask c).bits.toNat.testBit i = (mask c).get i := by
    rw [Bool.eq_iff_iff, Lanes.testBit_bits]
    exact ⟨fun ⟨_, set⟩ => set, fun set => ⟨i.isLt, set⟩⟩
  have hits : (fun i => ((ts.get i).intersect? ray).map (i, ·)) =
      fun i => if (mask c).get i then some (i, hit c i) else none := by
    funext i
    rw [intersect?_eq]
    cases (mask c).get i <;> rfl
  refine ⟨fun i => ?_, fun i => ?_, ?_, ?_⟩
  · rw [bit, isSome_intersect?]
  · rw [bit]
    exact intersect?_eq ts ray i
  · simp only [isSome_intersect?]
    exact Lanes.positions_bits (mask c)
  · rw [hits, intersect, lanes_eq, ← List.filterMap_eq_map, List.filterMap_filter]
    rfl

end TriangleBatch

end BoxTree

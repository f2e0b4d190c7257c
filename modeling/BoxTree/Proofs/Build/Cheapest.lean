import BoxTree.Proofs.Build.Cuts
import BoxTree.Proofs.Build.Exact
import BoxTree.Proofs.Build.Sweep

/-!
# The cheapest place of a span

An exact build compares the places along one axis, and then the best ones of the axes. A cost that is not a
number is less than no other, and no other is less than it. So a place with such a cost is passed over, unless
it is the first one: then it is never given up again.
-/

namespace BoxTree
open Scalar

/-- The first one of the least cost. Whatever has no number as its cost is passed over. -/
structure FirstCheapest {α : Type} (cost : α → Float32) (xs : List α) (x : α) : Prop where
  number : (cost x).isNaN = false
  least : ∀ y ∈ xs, (cost y).isNaN = false → cost x ≤ cost y
  first : ∃ before after, xs = before ++ x :: after ∧
    ∀ y ∈ before, (cost y).isNaN = false → cost x < cost y

namespace FirstCheapest

variable {α β : Type} {cost : α → Float32} {xs : List α} {x y : α}

theorem singleton (number : (cost x).isNaN = false) : FirstCheapest cost [x] x where
  number := number
  least := List.forall_mem_singleton.2 fun _ => le_refl_scalar number
  first := ⟨[], [], rfl, nofun⟩

theorem concat (cheapest : FirstCheapest cost xs x) (y : α) :
    FirstCheapest cost (xs ++ [y]) (if cost y < cost x then y else x) := by
  obtain ⟨number, least, before, after, split, first⟩ := cheapest
  have lastLe {z : α} (le : (cost y).isNaN = false → cost z ≤ cost y) :
      ∀ w ∈ [y], (cost w).isNaN = false → cost z ≤ cost w := List.forall_mem_singleton.2 le
  by_cases less : cost y < cost x
  · have below (z : α) (member : z ∈ xs) (numberZ : (cost z).isNaN = false) : cost y < cost z :=
      lt_of_lt_of_le_scalar less (least z member numberZ)
    have numberY : (cost y).isNaN = false := (lt_iff.1 less).1
    rw [if_pos less]
    refine ⟨numberY, ?_, xs, [], rfl, below⟩
    rw [List.forall_mem_append]
    exact ⟨fun z member numberZ => le_of_lt_scalar (below z member numberZ),
      lastLe fun _ => le_refl_scalar numberY⟩
  · rw [if_neg less]
    refine ⟨number, ?_, before, after ++ [y], ?_, first⟩
    · rw [List.forall_mem_append]
      exact ⟨least, lastLe fun numberY => (not_lt_iff numberY number).1 less⟩
    · rw [split, List.append_assoc, List.cons_append]

/-- The cheapest one of those that are each the cheapest of a group. The groups in which none was found
do not count. -/
theorem flatMap {xs : List β} {found : β → α} {group : β → List α}
    (cheapest : FirstCheapest cost (xs.map found) x)
    (each : ∀ b ∈ xs, (cost (found b)).isNaN = false → FirstCheapest cost (group b) (found b)) :
    FirstCheapest cost ((xs.filter fun b => !(cost (found b)).isNaN).flatMap group) x := by
  obtain ⟨number, least, before, after, split, first⟩ := cheapest
  obtain ⟨groups, rest, rfl, rfl, there⟩ := List.map_eq_append_iff.1 split
  obtain ⟨here, later, rfl, rfl, rfl⟩ := List.map_eq_cons_iff.1 there
  rw [List.forall_mem_map] at least first
  have counts : here ∈ groups ++ here :: later := List.mem_append_right _ List.mem_cons_self
  obtain ⟨_, _, before, after, inside, firstInside⟩ := each here counts number
  refine ⟨number, fun y member numberY => ?_,
    (groups.filter fun b => !(cost (found b)).isNaN).flatMap group ++ before,
    after ++ (later.filter fun b => !(cost (found b)).isNaN).flatMap group, ?_, ?_⟩
  · obtain ⟨b, kept, member⟩ := List.mem_flatMap.1 member
    obtain ⟨old, numberB⟩ := List.mem_filter.1 kept
    rw [Bool.not_eq_true'] at numberB
    exact le_trans_scalar (least b old numberB) ((each b old numberB).least y member numberY)
  · rw [List.filter_append, List.filter_cons_of_pos (by rw [number]; rfl), List.flatMap_append,
      List.flatMap_cons, inside]
    simp only [List.append_assoc, List.cons_append]
  · rw [List.forall_mem_append]
    refine ⟨fun y member numberY => ?_, firstInside⟩
    obtain ⟨b, kept, member⟩ := List.mem_flatMap.1 member
    obtain ⟨old, numberB⟩ := List.mem_filter.1 kept
    rw [Bool.not_eq_true'] at numberB
    exact lt_of_lt_of_le_scalar (first b old numberB)
      ((each b (List.mem_append_left _ old) numberB).least y member numberY)

end FirstCheapest

/-! ## One candidate after the other -/

def Candidate.kept? (candidates : List Candidate) : Option Candidate :=
  candidates.foldl (fun best candidate => cheaper best (some candidate)) none

namespace Candidate

theorem foldl_cheaper_firstCheapest {seen : List Candidate} {best : Candidate}
    (cheapest : FirstCheapest Candidate.cost seen best) (rest : List Candidate) :
    ∃ chosen, rest.foldl (fun best candidate => cheaper best (some candidate)) (some best) =
        some chosen ∧ FirstCheapest Candidate.cost (seen ++ rest) chosen := by
  induction rest generalizing seen best with
  | nil =>
      refine ⟨best, rfl, ?_⟩
      rwa [List.append_nil]
  | cons candidate rest ih =>
      rw [List.append_cons]
      exact ih (cheapest.concat candidate)

theorem kept?_firstCheapest {first : Candidate} (number : first.cost.isNaN = false)
    (rest : List Candidate) :
    ∃ chosen, kept? (first :: rest) = some chosen ∧
      FirstCheapest Candidate.cost (first :: rest) chosen :=
  foldl_cheaper_firstCheapest (.singleton number) rest

theorem kept?_of_isNaN {first : Candidate} (nan : first.cost.isNaN = true) (rest : List Candidate) :
    kept? (first :: rest) = some first := by
  have passed (candidate : Candidate) : cheaper (some first) (some candidate) = some first := by
    rw [cheaper, if_neg (not_lt_of_isNaN (.inr nan))]
  change rest.foldl (fun best candidate => cheaper best (some candidate)) (some first) = some first
  induction rest with
  | nil => rfl
  | cons candidate rest ih => rwa [List.foldl_cons, passed]

end Candidate

/-! ## The places of a span -/

namespace Exact
open Portion CostModel Orderings

variable {n : Nat} {p : Primitives n} {cost : CostModel} {o : Orderings n} {span : Span} {bounds : Box}
  {axis : Axis}

def candidate (p : Primitives n) (cost : CostModel) (o : Orderings n) (span : Span) (bounds : Box)
    (axis : Axis) (position : Nat) : Candidate :=
  let left := (o.slice axis span).take position
  let right := (o.slice axis span).drop position
  ⟨axis, position,
    cost.splitCost bounds.surfaceArea left.length ((p.boundsOf left).surfaceAreaAlong axis)
      right.length ((p.boundsOf right.reverse).surfaceAreaAlong axis)⟩

def candidates (p : Primitives n) (cost : CostModel) (o : Orderings n) (span : Span) (bounds : Box)
    (axis : Axis) : List Candidate :=
  (List.range' 1 (span.length - 1)).map (candidate p cost o span bounds axis)

theorem candidates_eq_cons (several : 2 ≤ span.length) (axis : Axis) :
    ∃ rest, candidates p cost o span bounds axis = candidate p cost o span bounds axis 1 :: rest := by
  obtain ⟨more, length⟩ := Nat.exists_eq_add_of_le' several
  rw [candidates, length]
  exact ⟨_, rfl⟩

theorem mergeAll_map (p : Primitives n) (triangles : List (Fin n)) :
    mergeAll (triangles.map fun i => ⟨1, p.box i⟩) = ⟨triangles.length, p.boundsOf triangles⟩ := by
  have count : (mergeAll (triangles.map fun i => ⟨1, p.box i⟩)).count = triangles.length := by
    rw [count_mergeAll, total, List.map_map]
    simp [Function.comp_def]
  have box : (mergeAll (triangles.map fun i => ⟨1, p.box i⟩)).box = p.boundsOf triangles := by
    rw [box_mergeAll, List.map_map]
    rfl
  rw [← count, ← box]

theorem candidateAt_eq (inside : span.stop ≤ (o.along.get axis).size) {position : Nat}
    (positive : 1 ≤ position) (less : position < span.length) :
    cost.candidateAt axis bounds.surfaceArea .inOrder .fromLast
        ((o.slice axis span).map fun i => ⟨1, p.box i⟩) position =
      some (candidate p cost o span bounds axis position) := by
  have length := length_slice o axis inside
  have left : ((o.slice axis span).take position).length ≠ 0 := by
    rw [List.length_take]
    omega
  have right : ((o.slice axis span).drop position).length ≠ 0 := by
    rw [List.length_drop]
    omega
  simp only [candidateAt, Arrangement.inOrder, Arrangement.fromLast, id, ← List.map_take, ← List.map_drop,
    ← List.map_reverse, mergeAll_map, List.length_reverse]
  rw [if_neg (not_or.2 ⟨left, right⟩), candidate]

theorem sweep_eq_kept? (inside : span.stop ≤ (o.along.get axis).size) (several : 2 ≤ span.length)
    (positive : 0 < bounds.surfaceArea) :
    cost.sweep axis bounds.surfaceArea ((o.slice axis span).map fun i => ⟨1, p.box i⟩) =
      Candidate.kept? (candidates p cost o span bounds axis) := by
  have length : ((o.slice axis span).map fun i => (⟨1, p.box i⟩ : Portion)).length = span.length := by
    rw [List.length_map, length_slice o axis inside]
  have notLe : ¬bounds.surfaceArea ≤ 0 := fun le =>
    not_lt_self _ (lt_of_lt_of_le_scalar positive le)
  have swept : ¬(bounds.surfaceArea ≤ 0 ∨ span.length < 2) := not_or.2 ⟨notLe, by omega⟩
  rw [sweep, fst_sweepWith, placeByPlace_eq, length, if_neg swept, Candidate.kept?, candidates, List.foldl_map]
  refine List.foldl_ext _ _ _ fun best position member => ?_
  rw [List.mem_range'_1] at member
  rw [candidateAt_eq inside member.1 (by omega)]

theorem bestSplit?_eq_kept? (inside : ∀ axis, span.stop ≤ (o.along.get axis).size)
    (several : 2 ≤ span.length) (positive : 0 < bounds.surfaceArea) {found : Axis → Candidate}
    (kept : ∀ axis, Candidate.kept? (candidates p cost o span bounds axis) = some (found axis)) :
    bestSplit? p cost o span bounds =
      (Candidate.kept? (Axis.all.map found)).map fun c => ⟨c.cost, c.position, c.axis⟩ := by
  simp only [bestSplit?, sweep_eq_kept? (inside _) several positive, kept]
  rw [Candidate.kept?, List.foldl_map]

theorem kept?_candidates (several : 2 ≤ span.length) (axis : Axis) :
    ∃ found, Candidate.kept? (candidates p cost o span bounds axis) = some found ∧
      ((candidate p cost o span bounds axis 1).cost.isNaN = true →
        found = candidate p cost o span bounds axis 1) ∧
      ((candidate p cost o span bounds axis 1).cost.isNaN = false →
        FirstCheapest Candidate.cost (candidates p cost o span bounds axis) found) := by
  obtain ⟨rest, along⟩ := @candidates_eq_cons n p cost o span bounds several axis
  rw [along]
  cases nan : (candidate p cost o span bounds axis 1).cost.isNaN with
  | true => exact ⟨_, Candidate.kept?_of_isNaN nan rest, fun _ => rfl, nofun⟩
  | false =>
      obtain ⟨found, kept, cheapest⟩ := Candidate.kept?_firstCheapest nan rest
      exact ⟨found, kept, nofun, fun _ => cheapest⟩

theorem bestSplit?_of_isNaN (inside : ∀ axis, span.stop ≤ (o.along.get axis).size)
    (several : 2 ≤ span.length) (positive : 0 < bounds.surfaceArea)
    (nan : (candidate p cost o span bounds .x 1).cost.isNaN = true) :
    bestSplit? p cost o span bounds = some ⟨(candidate p cost o span bounds .x 1).cost, 1, .x⟩ := by
  choose found kept first _ using @kept?_candidates n p cost o span bounds several
  rw [bestSplit?_eq_kept? inside several positive kept, Axis.all, List.map_cons, first .x nan,
    Candidate.kept?_of_isNaN nan]
  rfl

theorem bestSplit?_of_number (inside : ∀ axis, span.stop ≤ (o.along.get axis).size)
    (several : 2 ≤ span.length) (positive : 0 < bounds.surfaceArea)
    (number : (candidate p cost o span bounds .x 1).cost.isNaN = false) :
    ∃ chosen, bestSplit? p cost o span bounds = some ⟨chosen.cost, chosen.position, chosen.axis⟩ ∧
      FirstCheapest Candidate.cost
        ((Axis.all.filter fun axis => !(candidate p cost o span bounds axis 1).cost.isNaN).flatMap
          (candidates p cost o span bounds)) chosen := by
  choose found kept first cheapest using @kept?_candidates n p cost o span bounds several
  have same (axis : Axis) :
      (found axis).cost.isNaN = (candidate p cost o span bounds axis 1).cost.isNaN := by
    cases nan : (candidate p cost o span bounds axis 1).cost.isNaN with
    | true => rw [first axis nan, nan]
    | false => exact (cheapest axis nan).number
  obtain ⟨chosen, best, least⟩ := Candidate.kept?_firstCheapest ((same .x).trans number) [found .y, found .z]
  refine ⟨chosen, ?_, ?_⟩
  · rw [bestSplit?_eq_kept? inside several positive kept]
    exact congrArg _ best
  · have groups := @FirstCheapest.flatMap _ _ _ _ Axis.all found _ least
      fun axis _ numberFound => cheapest axis ((same axis).symm.trans numberFound)
    simpa only [same] using groups

/-- The split of a span is the first cheapest one of all places along the axes whose first place has a number
as its cost. This holds if the x axis is among these. Otherwise the split is at the first place along the x
axis. -/
theorem bestSplit?_firstCheapest (inside : ∀ axis, span.stop ≤ (o.along.get axis).size)
    (several : 2 ≤ span.length) (positive : 0 < bounds.surfaceArea) :
    ∃ chosen, bestSplit? p cost o span bounds = some ⟨chosen.cost, chosen.position, chosen.axis⟩ ∧
      ((candidate p cost o span bounds .x 1).cost.isNaN = true →
        chosen = candidate p cost o span bounds .x 1) ∧
      ((candidate p cost o span bounds .x 1).cost.isNaN = false →
        FirstCheapest Candidate.cost
          ((Axis.all.filter fun axis => !(candidate p cost o span bounds axis 1).cost.isNaN).flatMap
            (candidates p cost o span bounds)) chosen) := by
  cases nan : (candidate p cost o span bounds .x 1).cost.isNaN with
  | true => exact ⟨_, bestSplit?_of_isNaN inside several positive nan, fun _ => rfl, nofun⟩
  | false =>
      obtain ⟨chosen, best, least⟩ := bestSplit?_of_number inside several positive nan
      exact ⟨chosen, best, nofun, fun _ => least⟩

namespace Remote

/-- Two triangles next to each other, and one some way off along the x axis. -/
def source (distance : Float32) : TriangleSource :=
  .ofArray #[⟨⟨0, 0, 0⟩, ⟨1, 0, 0⟩, ⟨0, 1, 0⟩⟩, ⟨⟨1, 1, 1⟩, ⟨2, 1, 1⟩, ⟨1, 2, 1⟩⟩,
    ⟨⟨distance, 0, 0⟩, ⟨distance, 1, 0⟩, ⟨distance, 0, 1⟩⟩]

def primitives (distance : Float32) : Primitives 3 := .ofSource (source distance)

def orderings (distance : Float32) : Orderings 3 := .ofCentroids (primitives distance).centroids

def bestSplit? (distance : Float32) : Option (Split Axis) :=
  Exact.bestSplit? (primitives distance) (.ofSettings {}) (orderings distance) ⟨0, 3⟩
    (primitives distance).bounds

def place (distance : Float32) (axis : Axis) (position : Nat) : Candidate :=
  candidate (primitives distance) (.ofSettings {}) (orderings distance) ⟨0, 3⟩
    (primitives distance).bounds axis position

def places (distance : Float32) : List Candidate :=
  Axis.all.flatMap (candidates (primitives distance) (.ofSettings {}) (orderings distance) ⟨0, 3⟩
    (primitives distance).bounds)

theorem inside (distance : Float32) (axis : Axis) : 3 ≤ ((orderings distance).along.get axis).size :=
  (agree_ofCentroids _).1.inside axis

theorem slice_eq {distance : Float32} {axis : Axis} (order : List (Fin 3))
    (all : order.Perm (List.finRange 3))
    (sorted : SortedAlong (primitives distance).centroids axis order) :
    (orderings distance).slice axis ⟨0, 3⟩ = order :=
  (sorted_ofCentroids _ axis).eq_of_perm sorted (((agree_ofCentroids _).2 axis).trans all.symm)

theorem isNaN_place_far : (place 1e38 .x 1).cost.isNaN = true := by
  rw [place, candidate, slice_eq [0, 1, 2] (by decide) (by decide +kernel)]
  decide +kernel

theorem cost_place_far : (place 1e38 .x 2).cost = 1 := by
  rw [place, candidate, slice_eq [0, 1, 2] (by decide) (by decide +kernel)]
  decide +kernel

theorem number_place_near (axis : Axis) : (place 10 axis 1).cost.isNaN = false := by
  rw [place, candidate]
  cases axis with
  | x =>
      rw [slice_eq [0, 1, 2] (by decide) (by decide +kernel)]
      decide +kernel
  | y =>
      rw [slice_eq [0, 2, 1] (by decide) (by decide +kernel)]
      decide +kernel
  | z =>
      rw [slice_eq [0, 2, 1] (by decide) (by decide +kernel)]
      decide +kernel

end Remote

theorem bestSplit?_firstCheapest_near :
    ∃ chosen, Remote.bestSplit? 10 = some ⟨chosen.cost, chosen.position, chosen.axis⟩ ∧
      FirstCheapest Candidate.cost (Remote.places 10) chosen := by
  obtain ⟨chosen, best, _, least⟩ :=
    @bestSplit?_firstCheapest 3 (Remote.primitives 10) (.ofSettings {}) (Remote.orderings 10) ⟨0, 3⟩
      (Remote.primitives 10).bounds (Remote.inside 10) (by decide) (by decide +kernel)
  have numbers : Axis.all.filter (fun axis => !(Remote.place 10 axis 1).cost.isNaN) = Axis.all :=
    List.filter_eq_self.2 fun axis _ => by rw [Remote.number_place_near]; rfl
  refine ⟨chosen, best, ?_⟩
  rw [Remote.places, ← numbers]
  exact least (Remote.number_place_near .x)

/-- Far away the costs overflow. The place between the first two triangles has no number as its cost, and is
kept although the other place along the x axis costs as little as a place can. -/
theorem not_bestSplit?_firstCheapest_far :
    0 < (Remote.primitives 1e38).bounds.surfaceArea ∧
      (∃ candidate ∈ Remote.places 1e38, candidate.cost.isNaN = false) ∧
        ¬∃ chosen, Remote.bestSplit? 1e38 = some ⟨chosen.cost, chosen.position, chosen.axis⟩ ∧
          FirstCheapest Candidate.cost (Remote.places 1e38) chosen := by
  have positive : 0 < (Remote.primitives 1e38).bounds.surfaceArea := by decide +kernel
  have kept : Remote.bestSplit? 1e38 = some ⟨(Remote.place 1e38 .x 1).cost, 1, .x⟩ :=
    bestSplit?_of_isNaN (Remote.inside 1e38) (by decide) positive Remote.isNaN_place_far
  refine ⟨positive, ⟨Remote.place 1e38 .x 2, ?_, ?_⟩, ?_⟩
  · exact List.mem_flatMap.2 ⟨.x, Axis.mem_all .x, List.mem_map.2 ⟨2, by decide, rfl⟩⟩
  · rw [Remote.cost_place_far]
    decide +kernel
  · rintro ⟨chosen, best, cheapest⟩
    rw [kept, Option.some_inj, Split.mk.injEq] at best
    have number := cheapest.number
    rw [← best.1, Remote.isNaN_place_far] at number
    cases number

end Exact
end BoxTree

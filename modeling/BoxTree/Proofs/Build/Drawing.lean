import BoxTree.Proofs.Build.Growth
import BoxTree.Proofs.Build.Sketch

/-!
# Drawing the top of a tree

Building the top draws a sketch of it. What is handed out, and what waits for it, is noted in the order
in which the sketch has its tasks.
-/

namespace BoxTree.Binned
open Sketch

variable {n : Nat}

structure Draws (before after : Top n) (slot : Slot) (sketch : Sketch n) : Prop where
  slotEq : slot = sketch.slot slot.linkNow
  adds : before.arena.Adds after.arena slot.linkNow.target sketch.now
  tasks : after.tasks.toList = before.tasks.toList ++ sketch.tasks.map Prod.snd
  numbers : sketch.tasks.map Prod.fst = List.range' before.tasks.size sketch.tasks.length
  fixups : after.fixups.toList = before.fixups.toList ++ sketch.fixups

variable {before after : Top n} {slot : Slot} {sketch : Sketch n}

theorem draws_task (before : Top n) (task : Task n) :
    Draws before (before.handOut task).2 (before.handOut task).1 (.task before.tasks.size task) where
  slotEq := rfl
  adds := by
    have target : (before.handOut task).1.linkNow.target = .missing := Link.target_missing
    rw [target]
    exact ⟨.missing, rfl, rfl, rfl, rfl, fun _ _ => rfl, fun _ _ => rfl⟩
  tasks := by
    simp only [Top.handOut, Array.toList_push, Sketch.tasks, List.map_cons, List.map_nil]
  numbers := rfl
  fixups := (List.append_nil _).symm

theorem draws_leaf {link : Link} {arena : Arena} {range : BatchRange} {content : List Batch}
    (adds : before.arena.Adds arena link.target (.leaf range content)) :
    Draws before { before with arena } (.ready link) (.leaf range content) where
  slotEq := rfl
  adds := adds
  tasks := (List.append_nil _).symm
  numbers := rfl
  fixups := (List.append_nil _).symm

theorem await_fixups (top : Top n) (node : Nat) (side : Side) (link : Link) :
    (top.await node side (sketch.slot link)).fixups.toList =
      top.fixups.toList ++ sketch.waiting node side := by
  cases sketch with
  | leaf range content => exact (List.append_nil _).symm
  | task id job => exact Array.toList_push
  | inner index leftBox left rightBox right => exact (List.append_nil _).symm

theorem await_arena (top : Top n) (node : Nat) (side : Side) (slot : Slot) :
    (top.await node side slot).arena = top.arena := by
  cases slot <;> rfl

theorem await_tasks (top : Top n) (node : Nat) (side : Side) (slot : Slot) :
    (top.await node side slot).tasks = top.tasks := by
  cases slot <;> rfl

def reserve (top : Top n) : Top n := { top with arena := top.arena.reserve }

theorem setNode_arena (top : Top n) (index : Nat) (leftBox rightBox : Box) (left right : Slot) :
    (top.setNode index leftBox left rightBox right).arena =
      top.arena.setNode index ⟨⟨leftBox, left.linkNow⟩, ⟨rightBox, right.linkNow⟩⟩ := by
  rw [Top.setNode, await_arena, await_arena]

theorem draws_inner {planned top₁ top₂ : Top n} {leftSlot rightSlot : Slot} {link : Link}
    {leftSketch rightSketch : Sketch n} (drawsLeft : Draws (reserve planned) top₁ leftSlot leftSketch)
    (drawsRight : Draws top₁ top₂ rightSlot rightSketch)
    (refers : link.target = .inner planned.arena.nodes.size) (leftBox rightBox : Box) :
    Draws planned (top₂.setNode planned.arena.nodes.size leftBox leftSlot rightBox rightSlot)
      (.ready link) (.inner planned.arena.nodes.size leftBox leftSketch rightBox rightSketch) := by
  let index := planned.arena.nodes.size
  have taskCount : top₁.tasks.size = planned.tasks.size + leftSketch.tasks.length := by
    rw [← Array.length_toList, drawsLeft.tasks, List.length_append, List.length_map]
    rfl
  constructor
  · rfl
  · rw [setNode_arena, Slot.linkNow, refers]
    exact Arena.adds_below_node drawsLeft.adds drawsRight.adds _ _
  · rw [Top.setNode, await_tasks, await_tasks, drawsRight.tasks, drawsLeft.tasks, Sketch.tasks,
      List.map_append, List.append_assoc]
    rfl
  · rw [Sketch.tasks, List.map_append, drawsLeft.numbers, drawsRight.numbers, taskCount,
      List.length_append]
    exact List.range'_append_1
  · have ownLeft := @await_fixups n leftSketch top₂ index .left leftSlot.linkNow
    have ownRight := @await_fixups n rightSketch (top₂.await index .left leftSlot) index .right
      rightSlot.linkNow
    rw [← drawsLeft.slotEq] at ownLeft
    rw [← drawsRight.slotEq, ownLeft, drawsRight.fixups, drawsLeft.fixups] at ownRight
    simp only [Top.setNode, ownRight, Sketch.fixups, List.append_assoc, index]
    rfl

theorem draws_of_statistics {statistics : BuildStatistics}
    (draws : Draws { before with arena := { before.arena with statistics } } after slot sketch) :
    Draws before after slot sketch where
  slotEq := draws.slotEq
  adds := Arena.adds_of_same draws.adds rfl rfl rfl rfl
  tasks := draws.tasks
  numbers := draws.numbers
  fixups := draws.fixups

end BoxTree.Binned

import Hopline.Proofs.Schedule.Moves

/-! Modules that come up at once, are always due and wait for nobody. A step polls each of them once,
in the order of their addition, and does nothing else to the world. -/

namespace Hopline.Scheduler

open Schedule

variable {σ : Type}

theorem exists_slot {scheduler : Scheduler σ} {id : ModuleId} {unit : Module σ}
    (found : scheduler.units[id]? = some unit) : ∃ slot, scheduler.slots[id]? = some slot ∧ slot.unit = unit := by
  rw [units, List.getElem?_map] at found
  exact Option.map_eq_some_iff.mp found

theorem due_zero (last : Option UInt32) (now : UInt32) : due last now 0 = true := by
  cases last with
  | none => rfl
  | some last => exact decide_eq_true (show 0 ≤ now - last from UInt32.zero_le)

/-- Polls modules one after the other. -/
def pollAll (units : List (Module σ)) (world : σ) : σ := units.foldl (fun world unit => unit.poll world) world

variable [Journal σ]

structure Eager (scheduler : Scheduler σ) : Prop where
  alone : ∀ id, scheduler.dependencies.successors id = []
  always : ∀ unit ∈ scheduler.units, ∀ world, unit.period world = 0
  atOnce : ∀ unit ∈ scheduler.units, ∀ world, unit.init world = (world, true)
  unseen : ∀ (event : Event) (world : σ), Journal.note event world = world

section Turn

variable {pass : Pass σ} {id : ModuleId} {unit : Module σ} {ticks : UInt32}

theorem Eager.of_keeps {before after : Pass σ} (eager : before.scheduler.Eager) (keeps : Keeps before after) :
    after.scheduler.Eager := by
  constructor
  case alone =>
    rw [keeps.dependencies]
    exact eager.alone
  case always =>
    rw [keeps.units]
    exact eager.always
  case atOnce =>
    rw [keeps.units]
    exact eager.atOnce
  case unseen => exact eager.unseen

theorem Eager.bringUp (eager : pass.scheduler.Eager) (found : pass.scheduler.units[id]? = some unit)
    (fresh : id ∉ pass.visited) (depth : Nat) :
    let up := pass.bringUp ticks (depth + 1) id
    Keeps pass up ∧ up.scheduler.isReady id = true ∧ up.world = pass.world ∧ up.visited = id :: pass.visited := by
  have marked : Keeps pass (pass.mark id) := ⟨rfl, rfl, rfl, List.subset_cons_self _ _, List.prefix_rfl⟩
  cases ready : pass.scheduler.isReady id with
  | true =>
    rw [bringUp_of_ready depth fresh ready]
    exact ⟨marked, ready, rfl, rfl⟩
  | false =>
    obtain ⟨slot, present, rfl⟩ := exists_slot found
    have member := List.mem_of_getElem? found
    have present : (pass.mark id).scheduler.slots[id]? = some slot := present
    have due : (pass.mark id).initDue ticks slot = true := by
      rw [Pass.initDue, eager.always _ member]
      exact due_zero slot.lastInit ticks
    have started : pass.bringUp ticks (depth + 1) id = (pass.mark id).initNow ticks id slot := by
      rw [bringUp_of_unready depth fresh ready]
      simp only [eager.alone, Pass.bringUpAll, List.all_nil, ↓reduceIte]
      rw [Pass.start_of_found ticks present, if_pos due]
    rw [started]
    refine ⟨⟨units_put present rfl, rfl, rfl, marked.visited, List.prefix_append _ _⟩, ?_, ?_, rfl⟩
    · rw [Pass.scheduler_initNow, isReady_put present, if_pos rfl, eager.atOnce _ member]
    · have hidden := @Pass.view_initNow σ _ σ (fun world => world) eager.unseen (pass.mark id) ticks id slot
      rw [eager.atOnce _ member] at hidden
      exact hidden

theorem Eager.turn (eager : pass.scheduler.Eager) (found : pass.scheduler.units[id]? = some unit)
    (fresh : id ∉ pass.visited) (depth : Nat) :
    let last := (pass.bringUp ticks (depth + 1) id).pollDue ticks id
    Keeps pass last ∧ last.world = unit.poll pass.world ∧ last.visited = id :: pass.visited := by
  obtain ⟨keeps, ready, world, visited⟩ := @Eager.bringUp σ _ pass id unit ticks eager found fresh depth
  rw [← keeps.units] at found
  obtain ⟨slot, present, rfl⟩ := exists_slot found
  have due : (pass.bringUp ticks (depth + 1) id).pollIsDue ticks slot = true := by
    rw [Pass.pollIsDue, ← isReady_of_found present, ready, (eager.of_keeps keeps).always _ (List.mem_of_getElem? found)]
    exact due_zero slot.lastPoll ticks
  rw [Pass.pollDue_of_found ticks present, if_pos due]
  refine ⟨keeps.trans ⟨units_put present rfl, rfl, rfl, List.Subset.refl _, List.prefix_append _ _⟩, ?_, visited⟩
  exact congrArg slot.unit.poll world

end Turn

variable {scheduler : Scheduler σ}

theorem Eager.after (eager : scheduler.Eager) (world : σ) (ticks : UInt32) {turns : Nat}
    (inside : turns ≤ scheduler.slots.length) :
    let pass := scheduler.after world ticks turns
    Keeps (scheduler.after world ticks 0) pass ∧ pass.world = pollAll (scheduler.units.take turns) world ∧
      ∀ id ∈ pass.visited, id < turns := by
  induction turns with
  | zero => exact ⟨.refl _, rfl, List.forall_mem_nil _⟩
  | succ turns ih =>
    obtain ⟨keeps, reached, before⟩ := ih (Nat.le_of_lt inside)
    have present : turns < scheduler.units.length := by
      rw [length_units]
      exact inside
    have found : (scheduler.after world ticks turns).scheduler.units[turns]? = some scheduler.units[turns] := by
      rw [keeps.units]
      exact List.getElem?_eq_getElem present
    obtain ⟨depth, deep⟩ : ∃ depth, scheduler.slots.length = depth + 1 := Nat.exists_eq_succ_of_ne_zero (by omega)
    have fresh : turns ∉ (scheduler.after world ticks turns).visited := fun seen => Nat.lt_irrefl _ (before turns seen)
    have start : (scheduler.after world ticks 0).scheduler.Eager := eager
    obtain ⟨kept, polled, visited⟩ := @Eager.turn σ _ _ _ _ ticks (start.of_keeps keeps) found fresh depth
    rw [← deep] at kept polled visited
    rw [after_succ]
    refine ⟨keeps.trans kept, ?_, ?_⟩
    · rw [turnOf, polled, reached, List.take_succ_eq_append_getElem present, pollAll, pollAll, List.foldl_append]
      rfl
    · intro id member
      rw [turnOf, visited] at member
      rcases List.mem_cons.mp member with rfl | earlier
      · exact Nat.lt_succ_self _
      · exact Nat.lt_succ_of_lt (before id earlier)

/-- The worlds of all steps are those of polling every module in turn. -/
theorem Eager.step (eager : scheduler.Eager) (world : σ) (ticks : UInt32) :
    let pass := scheduler.step world ticks
    pass.world = pollAll scheduler.units world ∧ pass.scheduler.units = scheduler.units ∧ pass.scheduler.Eager := by
  obtain ⟨keeps, reached, -⟩ := eager.after world ticks (Nat.le_refl _)
  have whole : scheduler.units.take scheduler.slots.length = scheduler.units := by
    rw [← length_units, List.take_length]
  have start : (scheduler.after world ticks 0).scheduler.Eager := eager
  rw [whole] at reached
  exact ⟨reached, keeps.units, start.of_keeps keeps⟩

end Hopline.Scheduler

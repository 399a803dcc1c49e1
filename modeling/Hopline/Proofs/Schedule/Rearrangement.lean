import Hopline.Proofs.Schedule.Awakening
import Hopline.Proofs.Schedule.Scripted
import Mathlib

/-! A step brings up all that it can, and the order in which the modules were added does not matter. The modules that
are ready after a step are the least set that could be, and nothing in what makes it the least knows of that order. -/

namespace Hopline.Scheduler

open Schedule Relation

variable {σ : Type}

/-- A module rises if it is ready already, or if it is awaited, would come up, and all that it needs rises. -/
inductive Rises (scheduler : Scheduler σ) (world : σ) (ticks : UInt32) : ModuleId → Prop
  | ready {id : ModuleId} (ready : scheduler.isReady id = true) : Rises scheduler world ticks id
  | brought {id : ModuleId} (awaited : scheduler.Awaited world ticks id) (answers : scheduler.Answers world id true)
      (met : ∀ needed ∈ scheduler.dependencies.successors id, Rises scheduler world ticks needed) :
      Rises scheduler world ticks id

/-- The other scheduler holds the same modules, each as it stands, in another order. In its world they answer the same. -/
structure Rearranged (order : Equiv.Perm ModuleId) (scheduler : Scheduler σ) (world : σ) (other : Scheduler σ)
    (world' : σ) : Prop where
  slots : ∀ id, other.slots[order id]? = scheduler.slots[id]?
  edges : ∀ id needed, other.dependencies.Edge (order id) (order needed) ↔ scheduler.dependencies.Edge id needed
  outlooks : ∀ unit ∈ scheduler.units, outlook unit world' = outlook unit world

theorem Answers.unique {scheduler : Scheduler σ} {world : σ} {id : ModuleId} {first second : Bool}
    (answers : scheduler.Answers world id first) (answers' : scheduler.Answers world id second) : first = second := by
  obtain ⟨slot, found, rfl⟩ := answers
  obtain ⟨slot', found', rfl⟩ := answers'
  cases found.symm.trans found'
  rfl

section Rearranged

variable {order : Equiv.Perm ModuleId} {scheduler other : Scheduler σ} {world world' : σ} {ticks : UInt32} {id : ModuleId}

theorem Rearranged.unit_mem (rearranged : Rearranged order scheduler world other world') {unit : Module σ}
    (member : unit ∈ other.units) : unit ∈ scheduler.units := by
  obtain ⟨slot, found, rfl⟩ := List.mem_map.mp member
  obtain ⟨index, found⟩ := List.mem_iff_getElem?.mp found
  rw [← order.apply_symm_apply index, rearranged.slots] at found
  exact List.mem_of_getElem? (units_of_found found)

theorem Rearranged.symm (rearranged : Rearranged order scheduler world other world') :
    Rearranged order.symm other world' scheduler world := by
  constructor
  · intro id
    rw [← rearranged.slots, order.apply_symm_apply]
  · intro id needed
    rw [← rearranged.edges, order.apply_symm_apply, order.apply_symm_apply]
  · intro unit member
    exact (rearranged.outlooks unit (rearranged.unit_mem member)).symm

theorem Rearranged.isReady (rearranged : Rearranged order scheduler world other world') (id : ModuleId) :
    other.isReady (order id) = scheduler.isReady id := by
  rw [Scheduler.isReady, rearranged.slots, Scheduler.isReady]

theorem Rearranged.exists_needed (rearranged : Rearranged order scheduler world other world') {needed : ModuleId}
    (edge : needed ∈ other.dependencies.successors (order id)) :
    ∃ origin ∈ scheduler.dependencies.successors id, needed = order origin := by
  refine ⟨order.symm needed, (rearranged.edges id _).mp ?_, (order.apply_symm_apply needed).symm⟩
  rw [order.apply_symm_apply]
  exact edge

theorem Rearranged.inside (rearranged : Rearranged order scheduler world other world') (inside : scheduler.Inside) :
    other.Inside := by
  intro source target edge
  have found := List.getElem?_eq_getElem (inside _ _ ((rearranged.symm.edges source target).mpr edge))
  rw [rearranged.symm.slots] at found
  exact lt_of_found found

theorem Rearranged.acyclic (rearranged : Rearranged order scheduler world other world')
    (acyclic : scheduler.dependencies.Acyclic) : other.dependencies.Acyclic := by
  intro vertex cycle
  apply acyclic (order.symm vertex)
  exact cycle.lift order.symm fun source target edge => (rearranged.symm.edges source target).mpr edge

theorem Rearranged.independent [Journal σ] (rearranged : Rearranged order scheduler world other world')
    (independent : Independent scheduler.units) : Independent other.units := by
  have moved : ∀ {id unit}, other.units[id]? = some unit → scheduler.units[order.symm id]? = some unit := by
    intro id unit found
    rw [← found, Scheduler.units, Scheduler.units, List.getElem?_map, List.getElem?_map, rearranged.symm.slots]
  constructor
  · intro id other unit neighbour apart found found'
    exact independent.init _ _ unit neighbour (order.symm.injective.ne apart) (moved found) (moved found')
  · intro id other unit neighbour apart found found'
    exact independent.poll _ _ unit neighbour (order.symm.injective.ne apart) (moved found) (moved found')
  · exact fun unit member => independent.note unit (rearranged.unit_mem member)

theorem Rearranged.awaited (rearranged : Rearranged order scheduler world other world')
    (awaited : scheduler.Awaited world ticks id) : other.Awaited world' ticks (order id) := by
  obtain ⟨slot, found, unready, elapsed⟩ := awaited
  refine ⟨slot, (rearranged.slots id).trans found, unready, ?_⟩
  have view := rearranged.outlooks slot.unit (List.mem_of_getElem? (units_of_found found))
  have period : slot.unit.period world' = slot.unit.period world := congrArg Prod.fst view
  rw [period]
  exact elapsed

theorem Rearranged.answers (rearranged : Rearranged order scheduler world other world') {answer : Bool}
    (answers : scheduler.Answers world id answer) : other.Answers world' (order id) answer := by
  obtain ⟨slot, found, answered⟩ := answers
  have view := rearranged.outlooks slot.unit (List.mem_of_getElem? (units_of_found found))
  have same := congrArg Prod.snd view
  exact ⟨slot, (rearranged.slots id).trans found, same.trans answered⟩

theorem Rearranged.rises (rearranged : Rearranged order scheduler world other world')
    (rises : Rises scheduler world ticks id) : Rises other world' ticks (order id) := by
  induction rises with
  | ready ready => exact .ready ((rearranged.isReady _).trans ready)
  | brought awaited answers _ ih =>
    refine .brought (rearranged.awaited awaited) (rearranged.answers answers) ?_
    intro needed edge
    obtain ⟨origin, edge', rfl⟩ := rearranged.exists_needed edge
    exact ih origin edge'

theorem Rearranged.awaited_iff (rearranged : Rearranged order scheduler world other world') :
    other.Awaited world' ticks (order id) ↔ scheduler.Awaited world ticks id := by
  refine ⟨fun awaited => ?_, rearranged.awaited⟩
  have back := rearranged.symm.awaited awaited
  rw [order.symm_apply_apply] at back
  exact back

theorem Rearranged.rises_iff (rearranged : Rearranged order scheduler world other world') :
    Rises other world' ticks (order id) ↔ Rises scheduler world ticks id := by
  refine ⟨fun rises => ?_, rearranged.rises⟩
  have back := rearranged.symm.rises rises
  rw [order.symm_apply_apply] at back
  exact back

theorem Rearranged.lt_length_iff (rearranged : Rearranged order scheduler world other world') :
    order id < other.slots.length ↔ id < scheduler.slots.length := by
  rw [← not_iff_not, Nat.not_lt, Nat.not_lt, ← List.getElem?_eq_none_iff, rearranged.slots, List.getElem?_eq_none_iff]

theorem Rearranged.reaches_iff (rearranged : Rearranged order scheduler world other world') {source target : ModuleId} :
    other.dependencies.Reaches (order source) (order target) ↔ scheduler.dependencies.Reaches source target := by
  constructor
  · intro reaches
    have back : scheduler.dependencies.Reaches (order.symm (order source)) (order.symm (order target)) :=
      reaches.lift order.symm fun first second edge => (rearranged.symm.edges first second).mpr edge
    rw [order.symm_apply_apply, order.symm_apply_apply] at back
    exact back
  · exact fun reaches => reaches.lift order fun first second edge => (rearranged.edges first second).mpr edge

theorem Rearranged.depend_ok_iff (rearranged : Rearranged order scheduler world other world') (wellFormed : scheduler.WellFormed)
    (wellFormed' : other.WellFormed) (source target : ModuleId) :
    (other.depend (order source) (order target)).2 = .ok () ↔ (scheduler.depend source target).2 = .ok () := by
  have judges := wellFormed.judges source target
  have judges' := wellFormed'.judges (order source) (order target)
  by_cases known : source < scheduler.slots.length
  · by_cases known' : target < scheduler.slots.length
    · have moved := rearranged.lt_length_iff.mpr known
      have moved' := rearranged.lt_length_iff.mpr known'
      rw [judges.accepted known known', judges'.accepted moved moved', rearranged.edges, rearranged.reaches_iff]
    · have outside := Nat.le_of_not_lt known'
      have outside' := Nat.le_of_not_lt (rearranged.lt_length_iff.not.mpr known')
      rw [judges.unknownTarget known outside, judges'.unknownTarget (rearranged.lt_length_iff.mpr known) outside']
      exact ⟨nofun, nofun⟩
  · have outside := Nat.le_of_not_lt known
    have outside' := Nat.le_of_not_lt (rearranged.lt_length_iff.not.mpr known)
    rw [judges.unknownSource outside, judges'.unknownSource outside']
    exact ⟨nofun, nofun⟩

theorem Rearranged.depend (rearranged : Rearranged order scheduler world other world') (wellFormed : scheduler.WellFormed)
    (wellFormed' : other.WellFormed) (source target : ModuleId) :
    Rearranged order (scheduler.depend source target).1 world (other.depend (order source) (order target)).1 world' := by
  have judges := wellFormed.judges source target
  have judges' := wellFormed'.judges (order source) (order target)
  have both := rearranged.depend_ok_iff wellFormed wellFormed' source target
  cases answer : (scheduler.depend source target).2 with
  | ok =>
    constructor
    · intro id
      rw [judges.modules.1, judges'.modules.1]
      exact rearranged.slots id
    · intro first second
      rw [judges.edges answer, judges'.edges (both.mpr answer), rearranged.edges, order.apply_eq_iff_eq, order.apply_eq_iff_eq]
    · rw [Scheduler.units, judges.modules.1]
      exact rearranged.outlooks
  | error error =>
    cases answer' : (other.depend (order source) (order target)).2 with
    | ok =>
      have accepted := both.mp answer'
      rw [answer] at accepted
      cases accepted
    | error error' =>
      rw [judges.unchanged error answer, judges'.unchanged error' answer']
      exact rearranged

end Rearranged

section Registration

/-- Adds modules in the given order, then lets some of them depend on others. -/
def registration (units : List (Module σ)) (edges : List (ModuleId × ModuleId)) : List (Request σ) :=
  units.map .add ++ edges.map fun edge => .depend edge.1 edge.2

theorem registration_concat (units : List (Module σ)) (edges : List (ModuleId × ModuleId)) (edge : ModuleId × ModuleId) :
    registration units (edges ++ [edge]) = registration units edges ++ [.depend edge.1 edge.2] := by
  simp [registration]

variable [Journal σ]

theorem scheduler_of_adds {maxModules : Nat} (world : σ) (units : List (Module σ)) (room : units.length ≤ maxModules) :
    ((units.map Request.add).foldl Run.after (.start maxModules world)).scheduler =
      { slots := units.map fun unit => { unit, ready := false, lastInit := none, lastPoll := none }
        dependencies := List.replicate units.length []
        maxModules } := by
  induction units using List.reverseRecOn with
  | nil => rfl
  | append_singleton units unit ih =>
    rw [List.length_append, List.length_singleton] at room
    rw [List.map_append, List.foldl_append]
    simp only [List.map_cons, List.map_nil, List.foldl_cons, List.foldl_nil, Run.after, Scheduler.add]
    rw [ih (Nat.le_of_succ_le room)]
    simp only [List.length_map]
    rw [if_neg (Nat.not_le.mpr room)]
    simp [List.replicate_succ']

theorem units_registration {maxModules : Nat} (world : σ) {units : List (Module σ)} (room : units.length ≤ maxModules)
    (edges : List (ModuleId × ModuleId)) :
    ((registration units edges).foldl Run.after (.start maxModules world)).scheduler.units = units := by
  induction edges using List.reverseRecOn with
  | nil =>
    simp only [registration, List.map_nil, List.append_nil, scheduler_of_adds world units room, Scheduler.units, List.map_map]
    exact List.map_id units
  | append_singleton edges edge ih =>
    rw [registration_concat, List.foldl_append]
    have judges := (Run.wellFormed_run maxModules world (registration units edges)).judges edge.1 edge.2
    exact (congrArg (List.map Slot.unit) judges.modules.1).trans ih

/-- To add the modules in another order and let them depend on the same ones gives the same scheduler, rearranged. -/
theorem rearranged_registration {order : Equiv.Perm ModuleId} {maxModules : Nat} (world now : σ) {units units' : List (Module σ)}
    (same : ∀ id, units'[order id]? = units[id]?) (room : units.length ≤ maxModules) (room' : units'.length ≤ maxModules)
    (edges : List (ModuleId × ModuleId)) :
    Rearranged order ((registration units edges).foldl Run.after (.start maxModules world)).scheduler now
      ((registration units' (edges.map (Prod.map order order))).foldl Run.after (.start maxModules world)).scheduler now := by
  induction edges using List.reverseRecOn with
  | nil =>
    simp only [registration, List.map_nil, List.append_nil, scheduler_of_adds world units room,
      scheduler_of_adds world units' room']
    constructor
    · intro id
      simp only [List.getElem?_map, same]
    · intro id needed
      exact ⟨fun edge => absurd edge Graph.not_edge_replicate, fun edge => absurd edge Graph.not_edge_replicate⟩
    · exact fun _ _ => rfl
  | append_singleton edges edge ih =>
    rw [List.map_append, List.map_singleton, registration_concat, registration_concat, List.foldl_append, List.foldl_append]
    exact ih.depend (Run.wellFormed_run _ _ _) (Run.wellFormed_run _ _ _) edge.1 edge.2

end Registration

section Step

variable [Journal σ] {scheduler : Scheduler σ} {world : σ} {ticks : UInt32} {id : ModuleId}

theorem faithful_step (inside : scheduler.Inside) (acyclic : scheduler.dependencies.Acyclic)
    (independent : Independent scheduler.units) (world : σ) (ticks : UInt32) :
    Faithful scheduler world ticks ⟨scheduler.slots.length, [], scheduler.step world ticks⟩ :=
  (faithful_start scheduler world ticks).moves acyclic independent (moves_after inside (Nat.le_refl _))

theorem Faithful.called_iff (faithful : Faithful scheduler world ticks ⟨scheduler.slots.length, [], scheduler.step world ticks⟩) :
    Called (scheduler.step world ticks).activity id ↔ scheduler.Awaited world ticks id ∧
      ∀ needed ∈ scheduler.dependencies.successors id, (scheduler.step world ticks).scheduler.isReady needed = true := by
  constructor
  · rintro ⟨answer, member⟩
    obtain ⟨awaited, -, met⟩ := faithful.called id answer member
    exact ⟨awaited, met⟩
  · rintro ⟨awaited, met⟩
    exact faithful.tried id (faithful.looked id awaited.lt_length) nofun awaited met

/-- Only what rises is ever ready during a step. -/
theorem rises_of_moves (acyclic : scheduler.dependencies.Acyclic) (independent : Independent scheduler.units) {stage : Stage σ}
    (moves : Moves ticks ⟨0, [], scheduler.after world ticks 0⟩ stage) :
    ∀ id, stage.pass.scheduler.isReady id = true → Rises scheduler world ticks id := by
  induction moves with
  | refl => exact fun id ready => .ready ready
  | tail before move ih =>
    have faithful := (faithful_start scheduler world ticks).moves acyclic independent before
    have later := faithful.move acyclic independent move
    intro id ready
    rcases (later.ready id).mp ready with start | called
    · exact .ready start
    -- Only a call makes more modules ready than there were, and all that the called one needs was ready before.
    cases move with
    | skip | enter | leave | pass => exact ih id ((faithful.ready id).mpr (.inr called))
    | init found looked met due =>
      obtain ⟨awaited, answers, -⟩ := later.called id true called
      rcases List.mem_append.mp called with old | new
      · exact ih id ((faithful.ready id).mpr (.inr old))
      · obtain ⟨rfl, -⟩ := Activity.init.inj (List.mem_singleton.mp new)
        have same := faithful.keeps.dependencies
        exact .brought awaited answers fun needed edge => ih needed (met needed (same ▸ edge))
    | poll =>
      refine ih id ((faithful.ready id).mpr (.inr ((List.mem_append.mp called).resolve_right ?_)))
      intro new
      cases List.mem_singleton.mp new

theorem isReady_step_iff (inside : scheduler.Inside) (acyclic : scheduler.dependencies.Acyclic)
    (independent : Independent scheduler.units) :
    (scheduler.step world ticks).scheduler.isReady id = true ↔ Rises scheduler world ticks id := by
  have faithful := faithful_step inside acyclic independent world ticks
  constructor
  · exact rises_of_moves acyclic independent (moves_after inside (Nat.le_refl _)) id
  · intro rises
    induction rises with
    | ready ready => exact (faithful.ready _).mpr (.inl ready)
    | brought awaited answers _ ih =>
      obtain ⟨answer, called⟩ := faithful.called_iff.mpr ⟨awaited, ih⟩
      have answers' := (faithful.called _ answer called).2.1
      cases answers.unique answers'
      exact (faithful.ready _).mpr (.inr called)

end Step

/-- A step brings up exactly what it can, dependencies first, whatever the order in which the modules were added. -/
theorem brings_up_all_it_can [Journal σ] (maxModules : Nat) (start : σ) (requests : List (Request σ)) (ticks : UInt32)
    (independent : Independent (requests.foldl Run.after (.start maxModules start)).scheduler.units) :
    let run := requests.foldl Run.after (.start maxModules start)
    let pass := run.scheduler.step run.world ticks
    (∀ id, Called pass.activity id ↔ run.scheduler.Awaited run.world ticks id ∧
      ∀ needed ∈ run.scheduler.dependencies.successors id, pass.scheduler.isReady needed = true) ∧
    (∀ id, pass.scheduler.isReady id = true ↔ run.scheduler.isReady id = true ∨ .init id true ∈ pass.activity) ∧
    Ordered run.scheduler.dependencies pass.activity ∧
    ∀ (order : Equiv.Perm ModuleId) (other : Scheduler σ) (world' : σ),
      Rearranged order run.scheduler run.world other world' →
      let pass' := other.step world' ticks
      ∀ id, (Called pass'.activity (order id) ↔ Called pass.activity id) ∧
        pass'.scheduler.isReady (order id) = pass.scheduler.isReady id := by
  intro run pass
  have wellFormed : run.scheduler.WellFormed := Run.wellFormed_run maxModules start requests
  have faithful := faithful_step wellFormed.inside wellFormed.acyclic independent run.world ticks
  refine ⟨fun id => faithful.called_iff, faithful.ready, faithful.ordered, ?_⟩
  intro order other world' rearranged
  have inside := rearranged.inside wellFormed.inside
  have acyclic := rearranged.acyclic wellFormed.acyclic
  have independent' := rearranged.independent independent
  have faithful' := faithful_step inside acyclic independent' world' ticks
  have isReady : ∀ id, (other.step world' ticks).scheduler.isReady (order id) = pass.scheduler.isReady id := by
    intro id
    rw [Bool.eq_iff_iff, isReady_step_iff inside acyclic independent']
    exact rearranged.rises_iff.trans (isReady_step_iff wellFormed.inside wellFormed.acyclic independent).symm
  intro pass' id
  refine ⟨?_, isReady id⟩
  rw [faithful'.called_iff, faithful.called_iff, rearranged.awaited_iff]
  refine and_congr_right fun _ => ?_
  constructor
  · intro met needed edge
    rw [← isReady needed]
    exact met _ ((rearranged.edges id needed).mpr edge)
  · intro met needed edge
    obtain ⟨origin, edge', rfl⟩ := rearranged.exists_needed edge
    rw [isReady origin]
    exact met origin edge'

section Rehearsal

theorem outlook_scripted {id : ModuleId} (name : Option String) {world world' : Rehearsal}
    (same : world'.parts[id]? = world.parts[id]?) :
    outlook (Rehearsal.unit id name) world' = outlook (Rehearsal.unit id name) world := by
  simp only [outlook, Rehearsal.unit, Rehearsal.answer_bringUp, same]

/-- Modules that act out different parts leave each other alone. -/
theorem independent_of_scripted {parts : List (ModuleId × Option String)} (distinct : (parts.map Prod.fst).Nodup) :
    Independent (parts.map fun part => Rehearsal.unit part.1 part.2) := by
  have scripted : ∀ {id : ModuleId} {unit : Module Rehearsal},
      (parts.map fun part => Rehearsal.unit part.1 part.2)[id]? = some unit →
      ∃ (part : ModuleId) (name : Option String), (parts.map Prod.fst)[id]? = some part ∧ unit = Rehearsal.unit part name := by
    intro id unit found
    rw [List.getElem?_map, Option.map_eq_some_iff] at found
    obtain ⟨part, found, rfl⟩ := found
    refine ⟨part.1, part.2, ?_, rfl⟩
    rw [List.getElem?_map, found]
    rfl
  have apart : ∀ {id other : ModuleId} {part part' : ModuleId}, id ≠ other → (parts.map Prod.fst)[id]? = some part →
      (parts.map Prod.fst)[other]? = some part' → part ≠ part' := by
    rintro id other part _ different found found' rfl
    obtain ⟨inside, -⟩ := List.getElem?_eq_some_iff.mp found
    exact different ((List.getElem?_inj inside distinct).mp (found.trans found'.symm))
  constructor
  · intro id other unit neighbour different found found' world
    obtain ⟨part, name, known, rfl⟩ := scripted found
    obtain ⟨part', name', known', rfl⟩ := scripted found'
    exact outlook_scripted name (Rehearsal.parts_bringUp_of_ne (apart different known known'))
  · intro id other unit neighbour _ found found' world
    obtain ⟨part, name, -, rfl⟩ := scripted found
    obtain ⟨part', name', -, rfl⟩ := scripted found'
    exact outlook_scripted name (congrArg (·[part]?) (Rehearsal.parts_pollPart part' world))
  · intro unit member event world
    obtain ⟨part, -, rfl⟩ := List.mem_map.mp member
    exact outlook_scripted part.2 rfl

def mast : Module Rehearsal := Rehearsal.unit 0 (some "mast")

def clock : Module Rehearsal := Rehearsal.unit 1 (some "clock")

def radio : Module Rehearsal := Rehearsal.unit 2 (some "radio")

/-- The clock is not ready at its first try. -/
def station : Rehearsal :=
  { parts := [⟨some "mast", 0, []⟩, ⟨some "clock", 4, [false]⟩, ⟨some "radio", 6, []⟩], log := [], events := [] }

def mirrored : Equiv.Perm ModuleId := Equiv.swap 0 2

theorem brings_up_all_it_can_station :
    let run := (registration [mast, clock, radio] [(2, 1), (1, 0)]).foldl Run.after (.start 4 station)
    let other :=
      (registration [radio, clock, mast] ([(2, 1), (1, 0)].map (Prod.map mirrored mirrored))).foldl Run.after (.start 4 station)
    let pass := run.scheduler.step run.world 5
    let pass' := other.scheduler.step run.world 5
    pass.activity = [.init 0 true, .poll 0, .init 1 false] ∧
    pass'.activity = [.init 2 true, .init 1 false, .poll 2] ∧
    ∀ id, (Called pass'.activity (mirrored id) ↔ Called pass.activity id) ∧
      pass'.scheduler.isReady (mirrored id) = pass.scheduler.isReady id := by
  intro run other
  have independent : Independent run.scheduler.units := by
    rw [units_registration station (by decide) _]
    exact @independent_of_scripted [(0, some "mast"), (1, some "clock"), (2, some "radio")] (by decide)
  have rearranged : Rearranged mirrored run.scheduler run.world other.scheduler run.world := by
    refine rearranged_registration station run.world ?_ (by decide) (by decide) [(2, 1), (1, 0)]
    intro id
    match id with
    | 0 => rfl
    | 1 => rfl
    | 2 => rfl
    | id + 3 =>
      have still : mirrored (id + 3) = id + 3 :=
        Equiv.swap_apply_of_ne_of_ne (Nat.succ_ne_zero _) (Nat.ne_of_gt (Nat.lt_add_left id (by decide)))
      rw [still]
      rfl
  refine ⟨by cbv, by cbv, ?_⟩
  exact (brings_up_all_it_can 4 station _ 5 independent).2.2.2 mirrored other.scheduler run.world rearranged

end Rehearsal

end Hopline.Scheduler

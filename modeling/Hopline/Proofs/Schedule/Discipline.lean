import Hopline.Proofs.Schedule.CallLog
import Hopline.Proofs.Schedule.Descent
import Hopline.Proofs.Schedule.Scripted
import Mathlib

/-! The calls that a scheduler makes over a whole run are in order, and no poll that is due is left out. Each call is
judged by the log of the calls before it. -/

namespace Hopline.Scheduler

open Schedule Relation

variable {σ : Type}

/-- Nothing that is done to a module or noted in the world changes the period of any. -/
structure Steady [Journal σ] (units : List (Module σ)) : Prop where
  init : ∀ unit ∈ units, ∀ other ∈ units, ∀ world, unit.period (other.init world).1 = unit.period world
  poll : ∀ unit ∈ units, ∀ other ∈ units, ∀ world, unit.period (other.poll world) = unit.period world
  note : ∀ unit ∈ units, ∀ event world, unit.period (Journal.note event world) = unit.period world

def periodOf (scheduler : Scheduler σ) (world : σ) (id : ModuleId) : UInt32 :=
  (scheduler.units[id]?.map fun unit => unit.period world).getD 0

def Run.told (run : Run σ) (ticks : UInt32) (activity : List Activity) : List Entry :=
  run.log ++ activity.map (run.entry ticks)

theorem Run.told_concat (run : Run σ) (ticks : UInt32) (activity : List Activity) (last : Activity) :
    run.told ticks (activity ++ [last]) = run.told ticks activity ++ [run.entry ticks last] := by
  simp [told]

/-- What holds of a scheduler in use between its steps. All its modules are among the given ones. -/
structure Accountable (run : Run σ) (modules : List (Module σ)) (world : σ) : Prop where
  wellFormed : run.scheduler.WellFormed
  remembers : run.scheduler.Remembers run.log
  past : ∀ entry ∈ run.log, entry.step < run.steps
  within : ∀ unit ∈ run.scheduler.units, unit ∈ modules
  periods : ∀ unit ∈ modules, unit.period run.world = unit.period world
  disciplined : Disciplined (run.scheduler.periodOf world) run.log

/-- What holds of a step under way. -/
structure Orderly (run : Run σ) (modules : List (Module σ)) (world : σ) (ticks : UInt32) (stage : Stage σ) : Prop where
  sound : stage.Sound
  remembers : stage.pass.scheduler.Remembers (run.told ticks stage.pass.activity)
  disciplined : Disciplined (run.scheduler.periodOf world) (run.told ticks stage.pass.activity)
  units : stage.pass.scheduler.units = run.scheduler.units
  dependencies : stage.pass.scheduler.dependencies = run.scheduler.dependencies
  periods : ∀ unit ∈ modules, unit.period stage.pass.world = unit.period world
  polled : ∀ activity ∈ stage.pass.activity, ∀ id, activity.duty = .poll id → id < stage.turn

section Orderly

variable {run : Run σ} {modules : List (Module σ)} {world : σ} {ticks : UInt32} {first last : Stage σ}

theorem spaced_of_due {earlier : List Entry} {duty : Duty} {last : Option UInt32} {span : UInt32}
    (remembered : last = (latest earlier duty).map Entry.ticks) (due : Scheduler.due last ticks span = true) :
    ∀ entry, latest earlier duty = some entry → span ≤ ticks - entry.ticks := by
  intro entry found
  rw [found] at remembered
  rw [remembered] at due
  exact of_decide_eq_true due

/-- A call that no other call of the same step has been like is the only one of its kind in the step. -/
theorem once_of_fresh {activity : Activity} {done : List Activity} (past : ∀ entry ∈ run.log, entry.step < run.steps)
    (fresh : ∀ other ∈ done, other.duty ≠ activity.duty) :
    ∀ other ∈ run.told ticks done, other.step = (run.entry ticks activity).step →
      other.duty ≠ (run.entry ticks activity).duty := by
  intro other member same
  rcases List.mem_append.mp member with old | new
  · exact absurd same (Nat.ne_of_lt (past other old))
  · obtain ⟨call, called, rfl⟩ := List.mem_map.mp new
    exact fresh call called

theorem called_of_duty {done : List Activity} {call : Activity} {id : ModuleId} (member : call ∈ done)
    (duty : call.duty = .init id) : Called done id := by
  cases call with
  | init _ answer =>
    cases duty
    exact ⟨answer, member⟩
  | poll => cases duty

theorem Orderly.unit_mem {stage : Stage σ} (orderly : Orderly run modules world ticks stage)
    (accountable : Accountable run modules world) {id : ModuleId} {slot : Slot σ}
    (found : stage.pass.scheduler.slots[id]? = some slot) : slot.unit ∈ modules := by
  apply accountable.within
  rw [← orderly.units]
  exact List.mem_of_getElem? (units_of_found found)

theorem Orderly.period_eq {stage : Stage σ} (orderly : Orderly run modules world ticks stage)
    (accountable : Accountable run modules world) {id : ModuleId} {slot : Slot σ}
    (found : stage.pass.scheduler.slots[id]? = some slot) :
    slot.unit.period stage.pass.world = run.scheduler.periodOf world id := by
  rw [orderly.periods _ (orderly.unit_mem accountable found), periodOf, ← orderly.units, units_of_found found]
  rfl

variable [Journal σ]

theorem Orderly.init {turn id : ModuleId} {path : List ModuleId} {pass : Pass σ} {slot : Slot σ}
    (orderly : Orderly run modules world ticks ⟨turn, id :: path, pass⟩) (accountable : Accountable run modules world)
    (steady : Steady modules) (found : pass.scheduler.slots[id]? = some slot)
    (met : ∀ needed ∈ pass.scheduler.dependencies.successors id, pass.scheduler.isReady needed = true)
    (due : pass.initDue ticks slot = true) : Orderly run modules world ticks ⟨turn, path, pass.initNow ticks id slot⟩ := by
  have unready := orderly.sound.unready id List.mem_cons_self
  constructor
  case sound => exact orderly.sound.init found
  case remembers =>
    dsimp only
    rw [Pass.activity_initNow, Pass.scheduler_initNow, run.told_concat]
    rw [isReady_of_found found] at unready
    exact orderly.remembers.init found unready (run.entry ticks (.init id _)) rfl
  case disciplined =>
    dsimp only
    rw [Pass.activity_initNow, run.told_concat]
    refine orderly.disciplined.concat ⟨nofun, ?_, ?_, once_of_fresh accountable.past ?_, ?_⟩
    · rintro id' answer' ⟨⟩
      rw [← orderly.remembers.ready, unready]
      nofun
    · rintro id' answer' ⟨⟩ needed edge
      rw [← orderly.remembers.ready]
      apply met
      rw [orderly.dependencies]
      exact edge
    · intro other called same
      exact orderly.sound.uncalled id List.mem_cons_self (called_of_duty called same)
    · have spaced := spaced_of_due (orderly.remembers.lastInit id slot found) due
      rw [orderly.period_eq accountable found] at spaced
      exact spaced
  case dependencies => exact orderly.dependencies
  case units => exact Eq.trans (units_put found (by rfl)) orderly.units
  case periods =>
    intro unit member
    have called := orderly.unit_mem accountable found
    have brought := steady.init unit member slot.unit called pass.world
    exact (Pass.view_initNow (steady.note unit member) pass ticks id slot).trans (brought.trans (orderly.periods unit member))
  case polled =>
    dsimp only
    rw [Pass.activity_initNow]
    intro call called other same
    rcases List.mem_append.mp called with old | new
    · exact orderly.polled call old other same
    · rw [List.mem_singleton.mp new] at same
      cases same

theorem Orderly.poll {turn : ModuleId} {pass : Pass σ} {slot : Slot σ} (orderly : Orderly run modules world ticks ⟨turn, [], pass⟩)
    (accountable : Accountable run modules world) (steady : Steady modules)
    (found : pass.scheduler.slots[turn]? = some slot) (looked : turn ∈ pass.visited) (due : pass.pollIsDue ticks slot = true) :
    Orderly run modules world ticks ⟨turn + 1, [], pass.pollNow ticks turn slot⟩ := by
  obtain ⟨ready, span⟩ := Bool.and_eq_true_iff.mp due
  constructor
  case sound => exact orderly.sound.move (.poll found looked due)
  case remembers =>
    dsimp only [Pass.pollNow]
    rw [run.told_concat]
    exact orderly.remembers.poll found (run.entry ticks (.poll turn)) rfl
  case disciplined =>
    dsimp only [Pass.pollNow]
    rw [run.told_concat]
    refine orderly.disciplined.concat ⟨?_, nofun, nofun, once_of_fresh accountable.past ?_, ?_⟩
    · rintro id ⟨⟩
      rw [← orderly.remembers.ready, isReady_of_found found, ready]
    · intro other called same
      exact Nat.lt_irrefl _ (orderly.polled other called turn same)
    · have spaced := spaced_of_due (orderly.remembers.lastPoll turn slot found) span
      rw [orderly.period_eq accountable found] at spaced
      exact spaced
  case dependencies => exact orderly.dependencies
  case units => exact Eq.trans (units_put found (by rfl)) orderly.units
  case periods =>
    intro unit member
    have called := orderly.unit_mem accountable found
    rw [← orderly.periods unit member]
    exact steady.poll unit member slot.unit called pass.world
  case polled =>
    intro call called other same
    rcases List.mem_append.mp called with old | new
    · exact Nat.lt_succ_of_lt (orderly.polled call old other same)
    · rw [List.mem_singleton.mp new] at same
      cases same
      exact Nat.lt_succ_self _

theorem Orderly.move (orderly : Orderly run modules world ticks first) (accountable : Accountable run modules world)
    (steady : Steady modules) (move : Move ticks first last) : Orderly run modules world ticks last := by
  have sound := orderly.sound.move move
  cases move with
  | skip | enter | leave => exact { orderly with sound }
  | init found _ met due => exact orderly.init accountable steady found met due
  | pass =>
    exact { orderly with
      sound
      polled := fun call called id same => Nat.lt_succ_of_lt (orderly.polled call called id same) }
  | poll found looked due => exact orderly.poll accountable steady found looked due

theorem Orderly.moves (orderly : Orderly run modules world ticks first) (accountable : Accountable run modules world)
    (steady : Steady modules) (moves : Moves ticks first last) : Orderly run modules world ticks last := by
  induction moves with
  | refl => exact orderly
  | tail _ move ih => exact ih.move accountable steady move

end Orderly

def Request.unit? : Request σ → Option (Module σ)
  | .add unit => some unit
  | .depend .. | .step _ => none

section Accountable

variable {run : Run σ} {modules : List (Module σ)} {world : σ} {ticks : UInt32}

theorem accountable_start (maxModules : Nat) (modules : List (Module σ)) (world : σ) :
    Accountable (Run.start maxModules world) modules world := by
  refine ⟨wellFormed_empty maxModules, ⟨?_, nofun, nofun, nofun⟩, nofun, nofun, fun _ _ => rfl, ?_⟩
  · intro id
    exact ⟨nofun, nofun⟩
  · intro earlier entry later split
    cases earlier <;> cases split

theorem Accountable.add (accountable : Accountable run modules world) {unit : Module σ} (member : unit ∈ modules) :
    Accountable { run with scheduler := (run.scheduler.add unit).1 } modules world := by
  have admits := run.scheduler.admits unit
  rcases Nat.lt_or_ge run.scheduler.slots.length run.scheduler.maxModules with room | full
  · have slots := (admits.room room).2
    have units : (run.scheduler.add unit).1.units = run.scheduler.units ++ [unit] := by
      simp [Scheduler.units, slots]
    refine ⟨accountable.wellFormed.add unit, accountable.remembers.add slots, accountable.past, ?_, accountable.periods, ?_⟩
    · intro other present
      rw [units] at present
      rcases List.mem_append.mp present with old | new
      · exact accountable.within other old
      · exact List.mem_singleton.mp new ▸ member
    · apply accountable.disciplined.congr
      intro entry logged
      -- The log knows nothing of the new module, so no period that it is judged by has changed.
      have known := accountable.remembers.known entry logged
      rw [← length_units] at known
      simp only [periodOf]
      rw [units, List.getElem?_append_left known]
  · rw [admits.unchanged _ (admits.full full)]
    exact accountable

theorem Accountable.depend (accountable : Accountable run modules world) (source target : ModuleId) :
    Accountable { run with scheduler := (run.scheduler.depend source target).1 } modules world := by
  have slots := (accountable.wellFormed.judges source target).modules.1
  have units : (run.scheduler.depend source target).1.units = run.scheduler.units := congrArg (List.map Slot.unit) slots
  refine ⟨accountable.wellFormed.depend source target, accountable.remembers.of_slots slots, accountable.past, ?_,
    accountable.periods, ?_⟩
  · rw [units]
    exact accountable.within
  · apply accountable.disciplined.congr
    intro entry _
    simp only [periodOf]
    rw [units]

variable [Journal σ]

theorem Accountable.orderly (accountable : Accountable run modules world) (ticks : UInt32) :
    Orderly run modules world ticks ⟨0, [], run.scheduler.after run.world ticks 0⟩ := by
  have told : run.told ticks [] = run.log := List.append_nil _
  refine ⟨sound_start _ _ _, ?_, ?_, rfl, rfl, accountable.periods, nofun⟩
  · exact told.symm ▸ accountable.remembers
  · exact told.symm ▸ accountable.disciplined

theorem Accountable.step (accountable : Accountable run modules world) (steady : Steady modules) (ticks : UInt32) :
    Accountable (run.after (.step ticks)) modules world := by
  have orderly := (accountable.orderly ticks).moves accountable steady
    (moves_after accountable.wellFormed.inside (Nat.le_refl _))
  have units : (run.after (.step ticks)).scheduler.units = run.scheduler.units := orderly.units
  refine ⟨accountable.wellFormed.step run.world ticks, orderly.remembers, ?_, ?_, orderly.periods, ?_⟩
  · intro entry member
    rcases List.mem_append.mp member with old | new
    · exact Nat.lt_succ_of_lt (accountable.past entry old)
    · obtain ⟨activity, -, rfl⟩ := List.mem_map.mp new
      exact Nat.lt_succ_self _
  · rw [units]
    exact accountable.within
  · apply orderly.disciplined.congr
    intro entry _
    simp only [periodOf]
    rw [units]

theorem accountable_run (maxModules : Nat) (world : σ) (requests : List (Request σ))
    (within : ∀ unit, .add unit ∈ requests → unit ∈ modules) (steady : Steady modules) :
    Accountable (requests.foldl Run.after (.start maxModules world)) modules world := by
  induction requests using List.reverseRecOn with
  | nil => exact accountable_start maxModules modules world
  | append_singleton requests request ih =>
    have before := ih fun unit member => within unit (List.mem_append_left _ member)
    rw [List.foldl_append]
    cases request with
    | add unit => exact before.add (within unit (by simp))
    | depend source target => exact before.depend source target
    | step ticks => exact before.step steady ticks

/-- A module that is ready in its turn is polled then, unless its last poll is too recent. -/
theorem Accountable.prompt (accountable : Accountable run modules world) (steady : Steady modules) (ticks : UInt32)
    {id : ModuleId} (inside : id < run.scheduler.slots.length) :
    let turn := run.scheduler.turnOf run.world ticks id
    turn.scheduler.Remembers (run.told ticks turn.activity) ∧
      (turn.scheduler.isReady id = true →
        (∀ last, latest run.log (.poll id) = some last → run.scheduler.periodOf world id ≤ ticks - last.ticks) →
        turn.activity ++ [.poll id] <+: (run.scheduler.step run.world ticks).activity) := by
  have closed := accountable.wellFormed.inside
  have before : Moves ticks ⟨0, [], run.scheduler.after run.world ticks 0⟩ ⟨id, [], run.scheduler.after run.world ticks id⟩ :=
    moves_after closed (Nat.le_of_lt inside)
  obtain ⟨moves, -⟩ := moves_of_turn closed before inside
  have orderly := (accountable.orderly ticks).moves accountable steady (before.trans moves)
  dsimp only
  obtain ⟨turn, same⟩ : ∃ turn, run.scheduler.turnOf run.world ticks id = turn := ⟨_, rfl⟩
  rw [same] at orderly ⊢
  refine ⟨orderly.remembers, ?_⟩
  intro ready spaced
  -- The step has polled only modules whose turn came before.
  have remembered : latest (run.told ticks turn.activity) (.poll id) = latest run.log (.poll id) := by
    apply latest_append
    intro entry member duty
    obtain ⟨activity, called, rfl⟩ := List.mem_map.mp member
    exact Nat.lt_irrefl _ (orderly.polled activity called id duty)
  have present : id < turn.scheduler.slots.length := by
    rw [← length_units, orderly.units, length_units]
    exact inside
  have found := List.getElem?_eq_getElem present
  have due : turn.pollIsDue ticks turn.scheduler.slots[id] = true := by
    refine Bool.and_eq_true_iff.mpr ⟨?_, ?_⟩
    · rw [← isReady_of_found found]
      exact ready
    · rw [orderly.remembers.lastPoll id _ found, remembered, orderly.period_eq accountable found]
      cases recent : latest run.log (.poll id) with
      | none => rfl
      | some last => exact decide_eq_true (spaced last recent)
  have polled : (run.scheduler.after run.world ticks (id + 1)).activity = turn.activity ++ [.poll id] := by
    rw [after_succ, same, Pass.pollDue_of_found ticks found, if_pos due]
    rfl
  rw [← polled]
  exact (moves_between closed inside (Nat.le_refl _)).keeps.activity

end Accountable

/-- The calls of any run are in order. Whatever step comes next makes the calls that it logs and no others, and leaves
out no poll that is due. -/
theorem calls_disciplined [Journal σ] (maxModules : Nat) (world : σ) (requests : List (Request σ))
    (steady : Steady (requests.filterMap Request.unit?)) :
    let run := requests.foldl Run.after (.start maxModules world)
    let period := run.scheduler.periodOf world
    Disciplined period run.log ∧
    ∀ ticks : UInt32,
      let pass := run.scheduler.step run.world ticks
      Plays run.scheduler.units run.world pass.activity pass.world ∧
      ∀ id < run.scheduler.slots.length,
        let turn := run.scheduler.turnOf run.world ticks id
        turn.scheduler.Remembers (run.told ticks turn.activity) ∧
          (turn.scheduler.isReady id = true →
            (∀ last, latest run.log (.poll id) = some last → period id ≤ ticks - last.ticks) →
            turn.activity ++ [.poll id] <+: pass.activity) := by
  intro run period
  have accountable : Accountable run (requests.filterMap Request.unit?) world := by
    refine accountable_run maxModules world requests ?_ steady
    intro unit member
    exact List.mem_filterMap.mpr ⟨.add unit, member, rfl⟩
  refine ⟨accountable.disciplined, ?_⟩
  intro ticks pass
  exact ⟨step_plays accountable.wellFormed.inside run.world ticks, fun id inside => accountable.prompt steady ticks inside⟩

section Rehearsal

theorem steady_of_scripted {units : List (Module Rehearsal)}
    (scripted : ∀ unit ∈ units, ∃ id name, unit = Rehearsal.unit id name) : Steady units := by
  constructor
  · intro unit member other member' world
    obtain ⟨id, name, rfl⟩ := scripted unit member
    obtain ⟨id', name', rfl⟩ := scripted other member'
    simp only [Rehearsal.unit, Rehearsal.period_bringUp]
  · intro unit member other member' world
    obtain ⟨id, name, rfl⟩ := scripted unit member
    obtain ⟨id', name', rfl⟩ := scripted other member'
    simp only [Rehearsal.unit, Rehearsal.parts_pollPart]
  · intro unit member event world
    obtain ⟨id, name, rfl⟩ := scripted unit member
    rfl

/-- A radio that waits for a clock. The clock is not ready at its first try, and the ticks wrap before the next. -/
def radioWithClock : List (Request Rehearsal) :=
  [.add (Rehearsal.unit 0 (some "radio")), .add (Rehearsal.unit 1 (some "clock")), .depend 0 1, .step 4294967290,
    .step 4294967293, .step 1, .step 5]

def radioAndClock : Rehearsal :=
  { parts := [⟨some "radio", 6, []⟩, ⟨some "clock", 4, [false]⟩], log := [], events := [] }

theorem calls_disciplined_radioWithClock :
    let run := radioWithClock.foldl Run.after (.start 4 radioAndClock)
    Disciplined (run.scheduler.periodOf radioAndClock) run.log ∧
    run.log.map (fun entry => (entry.ticks, entry.activity)) =
      [(4294967290, .init 1 false), (1, .init 1 true), (1, .init 0 true), (1, .poll 0), (1, .poll 1), (5, .poll 1)] := by
  have steady : Steady [Rehearsal.unit 0 (some "radio"), Rehearsal.unit 1 (some "clock")] := by
    apply steady_of_scripted
    intro unit member
    rcases List.mem_pair.mp member with rfl | rfl
    · exact ⟨0, some "radio", rfl⟩
    · exact ⟨1, some "clock", rfl⟩
  refine ⟨(calls_disciplined 4 radioAndClock radioWithClock steady).1, ?_⟩
  cbv

end Rehearsal

end Hopline.Scheduler

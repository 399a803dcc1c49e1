import Hopline.Proofs.Schedule.Dependencies
import Hopline.Proofs.Schedule.Descent

/-! Which modules a step calls to come up, and which are ready after it. -/

namespace Hopline.Scheduler

open Schedule Relation

variable {σ : Type}

/-- What a module answers: its period, and whether it would come up. -/
def outlook (unit : Module σ) (world : σ) : UInt32 × Bool := (unit.period world, (unit.init world).2)

/-- What a module answers is changed by no call of another. -/
structure Independent [Journal σ] (units : List (Module σ)) : Prop where
  init : ∀ (id other : ModuleId) (unit neighbour : Module σ), id ≠ other → units[id]? = some unit →
    units[other]? = some neighbour → ∀ world, outlook unit (neighbour.init world).1 = outlook unit world
  poll : ∀ (id other : ModuleId) (unit neighbour : Module σ), id ≠ other → units[id]? = some unit →
    units[other]? = some neighbour → ∀ world, outlook unit (neighbour.poll world) = outlook unit world
  note : ∀ unit ∈ units, ∀ event world, outlook unit (Journal.note event world) = outlook unit world

/-- A module that is not ready, and whose period has elapsed since its last try if there was one. -/
def Awaited (scheduler : Scheduler σ) (world : σ) (ticks : UInt32) (id : ModuleId) : Prop :=
  ∃ slot, scheduler.slots[id]? = some slot ∧ slot.ready = false ∧
    ∀ last, slot.lastInit = some last → slot.unit.period world ≤ ticks - last

def Answers (scheduler : Scheduler σ) (world : σ) (id : ModuleId) (answer : Bool) : Prop :=
  ∃ slot, scheduler.slots[id]? = some slot ∧ (slot.unit.init world).2 = answer

/-- No module is called before one that it depends on. -/
def Ordered (dependencies : Graph) (activity : List Activity) : Prop :=
  activity.Pairwise fun first second => ∀ id needed answer answer', first = .init id answer →
    second = .init needed answer' → ¬ dependencies.Edge id needed

theorem due_iff {last : Option UInt32} {now span : UInt32} :
    due last now span = true ↔ ∀ time, last = some time → span ≤ now - time := by
  cases last <;> simp [due]

variable [Journal σ]

/-- What holds of a step under way, seen from where it began. A module that has been looked at and left is settled:
all that it needs has been left before, so nothing that could still let it come up is yet to happen. -/
structure Faithful (scheduler : Scheduler σ) (world : σ) (ticks : UInt32) (stage : Stage σ) : Prop where
  sound : stage.Sound
  keeps : Keeps (scheduler.after world ticks 0) stage.pass
  ready : ∀ id, stage.pass.scheduler.isReady id = true ↔
    scheduler.isReady id = true ∨ .init id true ∈ stage.pass.activity
  untouched : ∀ id slot, scheduler.slots[id]? = some slot → slot.ready = false → ¬ Called stage.pass.activity id →
    stage.pass.scheduler.slots[id]? = some slot ∧ outlook slot.unit stage.pass.world = outlook slot.unit world
  called : ∀ id answer, .init id answer ∈ stage.pass.activity →
    scheduler.Awaited world ticks id ∧ scheduler.Answers world id answer ∧
      ∀ needed ∈ scheduler.dependencies.successors id, stage.pass.scheduler.isReady needed = true
  closed : ∀ id ∈ stage.pass.visited, id ∉ stage.path → scheduler.isReady id = false →
    ∀ needed ∈ scheduler.dependencies.successors id, needed ∈ stage.pass.visited ∧ needed ∉ stage.path
  tried : ∀ id ∈ stage.pass.visited, id ∉ stage.path → scheduler.Awaited world ticks id →
    (∀ needed ∈ scheduler.dependencies.successors id, stage.pass.scheduler.isReady needed = true) →
    Called stage.pass.activity id
  ordered : Ordered scheduler.dependencies stage.pass.activity
  looked : ∀ id < stage.turn, id ∈ stage.pass.visited

section Faithful

variable {scheduler : Scheduler σ} {world : σ} {ticks : UInt32} {first last : Stage σ}

theorem faithful_start (scheduler : Scheduler σ) (world : σ) (ticks : UInt32) :
    Faithful scheduler world ticks ⟨0, [], scheduler.after world ticks 0⟩ := by
  refine ⟨sound_start scheduler world ticks, .refl _, ?_, fun _ _ found _ _ => ⟨found, rfl⟩, nofun, nofun, nofun,
    List.Pairwise.nil, nofun⟩
  intro id
  exact ⟨.inl, fun ready => ready.resolve_right nofun⟩

omit [Journal σ] in
theorem Awaited.unready {id : ModuleId} (awaited : scheduler.Awaited world ticks id) : scheduler.isReady id = false := by
  obtain ⟨slot, found, unready, -⟩ := awaited
  rw [isReady_of_found found, unready]

omit [Journal σ] in
theorem Awaited.lt_length {id : ModuleId} (awaited : scheduler.Awaited world ticks id) : id < scheduler.slots.length := by
  obtain ⟨slot, found, -⟩ := awaited
  exact lt_of_found found

/-- A module on the path is as it was when the step began. -/
theorem Faithful.begun {turn id : ModuleId} {path : List ModuleId} {pass : Pass σ} {slot : Slot σ}
    (faithful : Faithful scheduler world ticks ⟨turn, path, pass⟩) (member : id ∈ path)
    (found : pass.scheduler.slots[id]? = some slot) :
    scheduler.slots[id]? = some slot ∧ slot.ready = false ∧ outlook slot.unit pass.world = outlook slot.unit world := by
  have present : id < scheduler.slots.length := Nat.lt_of_lt_of_eq (lt_of_found found) faithful.keeps.length
  have unready : scheduler.isReady id = false := by
    cases ready : scheduler.isReady id with
    | false => rfl
    | true =>
      have still := (faithful.ready id).mpr (.inl ready)
      rw [faithful.sound.unready id member] at still
      cases still
  have start := List.getElem?_eq_getElem present
  rw [isReady_of_found start] at unready
  obtain ⟨same, view⟩ := faithful.untouched id _ start unready (faithful.sound.uncalled id member)
  cases found.symm.trans same
  exact ⟨start, unready, view⟩

/-- The module on top of the path is due if it was when the step began. -/
theorem Faithful.initDue_iff {turn id : ModuleId} {path : List ModuleId} {pass : Pass σ} {slot : Slot σ}
    (faithful : Faithful scheduler world ticks ⟨turn, path, pass⟩) (member : id ∈ path)
    (found : pass.scheduler.slots[id]? = some slot) :
    pass.initDue ticks slot = true ↔ scheduler.Awaited world ticks id := by
  obtain ⟨start, unready, view⟩ := faithful.begun member found
  have period : slot.unit.period pass.world = slot.unit.period world := congrArg Prod.fst view
  unfold Pass.initDue
  rw [due_iff, period]
  constructor
  · exact fun elapsed => ⟨slot, start, unready, elapsed⟩
  · rintro ⟨slot', start', -, elapsed⟩
    cases start.symm.trans start'
    exact elapsed

theorem Faithful.skip {turn id : ModuleId} {path : List ModuleId} {pass : Pass σ}
    (faithful : Faithful scheduler world ticks ⟨turn, path, pass⟩)
    (move : Move ticks ⟨turn, path, pass⟩ ⟨turn, path, pass.mark id⟩) (fresh : id ∉ pass.visited)
    (ready : pass.scheduler.isReady id = true) : Faithful scheduler world ticks ⟨turn, path, pass.mark id⟩ := by
  have before : scheduler.isReady id = true := by
    rcases (faithful.ready id).mp ready with before | called
    · exact before
    · exact absurd (faithful.sound.called id ⟨true, called⟩) fresh
  refine { faithful with
    sound := faithful.sound.move move
    keeps := faithful.keeps.trans move.keeps
    closed := ?_
    tried := ?_
    looked := fun other before => List.mem_cons_of_mem _ (faithful.looked other before) }
  · intro other seen left unready needed edge
    rcases List.mem_cons.mp seen with rfl | seen
    · rw [before] at unready
      cases unready
    · obtain ⟨seen, left⟩ := faithful.closed other seen left unready needed edge
      exact ⟨List.mem_cons_of_mem _ seen, left⟩
  · intro other seen left awaited
    rcases List.mem_cons.mp seen with rfl | seen
    · rw [awaited.unready] at before
      cases before
    · exact faithful.tried other seen left awaited

theorem Faithful.enter {turn id : ModuleId} {path : List ModuleId} {pass : Pass σ}
    (faithful : Faithful scheduler world ticks ⟨turn, path, pass⟩)
    (move : Move ticks ⟨turn, path, pass⟩ ⟨turn, id :: path, pass.mark id⟩) (fresh : id ∉ pass.visited) :
    Faithful scheduler world ticks ⟨turn, id :: path, pass.mark id⟩ := by
  have old : ∀ {other}, other ∈ (pass.mark id).visited → other ∉ id :: path →
      other ∈ pass.visited ∧ other ∉ path := by
    intro other seen left
    exact ⟨(List.mem_cons.mp seen).resolve_left (List.ne_of_not_mem_cons left), List.not_mem_of_not_mem_cons left⟩
  refine { faithful with
    sound := faithful.sound.move move
    keeps := faithful.keeps.trans move.keeps
    closed := ?_
    tried := ?_
    looked := fun other before => List.mem_cons_of_mem _ (faithful.looked other before) }
  · intro other seen left unready needed edge
    obtain ⟨seen, left⟩ := old seen left
    obtain ⟨seen, left⟩ := faithful.closed other seen left unready needed edge
    exact ⟨List.mem_cons_of_mem _ seen, List.not_mem_cons_of_ne_of_not_mem (fun same => fresh (same ▸ seen)) left⟩
  · intro other seen left awaited
    obtain ⟨seen, left⟩ := old seen left
    exact faithful.tried other seen left awaited

/-- With the module on top of the path all that it needs is settled, so it may be left. -/
theorem Faithful.closed_leave {turn id : ModuleId} {path : List ModuleId} {pass : Pass σ}
    (faithful : Faithful scheduler world ticks ⟨turn, id :: path, pass⟩) (acyclic : scheduler.dependencies.Acyclic)
    (looked : ∀ needed ∈ pass.scheduler.dependencies.successors id, needed ∈ pass.visited) :
    ∀ other ∈ pass.visited, other ∉ path → scheduler.isReady other = false →
      ∀ needed ∈ scheduler.dependencies.successors other, needed ∈ pass.visited ∧ needed ∉ id :: path := by
  have same : pass.scheduler.dependencies = scheduler.dependencies := faithful.keeps.dependencies
  intro other seen left unready needed edge
  by_cases top : other = id
  · subst top
    rw [← same] at edge
    exact ⟨looked needed edge, faithful.sound.needed_not_mem (same.symm ▸ acyclic) edge⟩
  · exact faithful.closed other seen (List.not_mem_cons_of_ne_of_not_mem top left) unready needed edge

theorem Faithful.leave {turn id : ModuleId} {path : List ModuleId} {pass : Pass σ} {slot : Slot σ}
    (faithful : Faithful scheduler world ticks ⟨turn, id :: path, pass⟩) (acyclic : scheduler.dependencies.Acyclic)
    (found : pass.scheduler.slots[id]? = some slot)
    (looked : ∀ needed ∈ pass.scheduler.dependencies.successors id, needed ∈ pass.visited)
    (held : (∀ needed ∈ pass.scheduler.dependencies.successors id, pass.scheduler.isReady needed = true) →
      pass.initDue ticks slot = false) : Faithful scheduler world ticks ⟨turn, path, pass⟩ := by
  have same : pass.scheduler.dependencies = scheduler.dependencies := faithful.keeps.dependencies
  refine { faithful with sound := faithful.sound.leave, closed := ?_, tried := ?_ }
  · intro other seen left unready needed edge
    obtain ⟨seen, left⟩ := faithful.closed_leave acyclic looked other seen left unready needed edge
    exact ⟨seen, List.not_mem_of_not_mem_cons left⟩
  · intro other seen left awaited met
    by_cases top : other = id
    · subst top
      have due := (faithful.initDue_iff List.mem_cons_self found).mpr awaited
      rw [held (same.symm ▸ met)] at due
      cases due
    · exact faithful.tried other seen (List.not_mem_cons_of_ne_of_not_mem top left) awaited met

theorem Independent.initNow (independent : Independent scheduler.units) {pass : Pass σ}
    (units : pass.scheduler.units = scheduler.units) {id other : ModuleId} {slot slot' : Slot σ} (apart : other ≠ id)
    (found : pass.scheduler.slots[id]? = some slot) (found' : pass.scheduler.slots[other]? = some slot') :
    outlook slot'.unit (pass.initNow ticks id slot).world = outlook slot'.unit pass.world := by
  have known := units ▸ units_of_found found
  have known' := units ▸ units_of_found found'
  have hidden := independent.note slot'.unit (List.mem_of_getElem? known')
  rw [Pass.view_initNow hidden]
  exact independent.init other id slot'.unit slot.unit apart known' known pass.world

theorem Faithful.init {turn id : ModuleId} {path : List ModuleId} {pass : Pass σ} {slot : Slot σ}
    (faithful : Faithful scheduler world ticks ⟨turn, id :: path, pass⟩) (acyclic : scheduler.dependencies.Acyclic)
    (independent : Independent scheduler.units) (found : pass.scheduler.slots[id]? = some slot)
    (looked : ∀ needed ∈ pass.scheduler.dependencies.successors id, needed ∈ pass.visited)
    (met : ∀ needed ∈ pass.scheduler.dependencies.successors id, pass.scheduler.isReady needed = true)
    (due : pass.initDue ticks slot = true) : Faithful scheduler world ticks ⟨turn, path, pass.initNow ticks id slot⟩ := by
  have same : pass.scheduler.dependencies = scheduler.dependencies := faithful.keeps.dependencies
  have asleep : pass.scheduler.isReady id = false := faithful.sound.unready id List.mem_cons_self
  obtain ⟨start, unready, view⟩ := faithful.begun List.mem_cons_self found
  have isReady : ∀ other, (pass.initNow ticks id slot).scheduler.isReady other =
      if other = id then (slot.unit.init pass.world).2 else pass.scheduler.isReady other := isReady_put found _
  have stays : ∀ {other}, pass.scheduler.isReady other = true →
      (pass.initNow ticks id slot).scheduler.isReady other = true := by
    intro other ready
    rw [isReady, if_neg]
    · exact ready
    · rintro rfl
      rw [asleep] at ready
      cases ready
  constructor
  case sound => exact faithful.sound.init found
  case keeps => exact faithful.keeps.trans (Move.init found looked met due).keeps
  case ready =>
    intro other
    dsimp only
    rw [isReady, Pass.activity_initNow, List.mem_append, List.mem_singleton, ← or_assoc, ← faithful.ready]
    split
    next here =>
      subst here
      simp only [asleep, Bool.false_eq_true, false_or, Activity.init.injEq, true_and]
      exact eq_comm
    next apart => simp [apart]
  case untouched =>
    intro other slot' found' unready' uncalled
    dsimp only at uncalled ⊢
    rw [Pass.activity_initNow, called_init, not_or] at uncalled
    obtain ⟨still, seen⟩ := faithful.untouched other slot' found' unready' uncalled.1
    refine ⟨?_, (independent.initNow faithful.keeps.units uncalled.2 found still).trans seen⟩
    exact (slots_put found _ other).trans ((if_neg uncalled.2).trans still)
  case called =>
    intro other answer' member
    dsimp only at member ⊢
    rw [Pass.activity_initNow] at member
    rcases List.mem_append.mp member with old | new
    · obtain ⟨awaited, answers, met⟩ := faithful.called other answer' old
      exact ⟨awaited, answers, fun needed edge => stays (met needed edge)⟩
    · cases List.mem_singleton.mp new
      refine ⟨(faithful.initDue_iff List.mem_cons_self found).mp due, ⟨slot, start, ?_⟩, ?_⟩
      · exact (congrArg Prod.snd view).symm
      · rw [← same]
        exact fun needed edge => stays (met needed edge)
  case closed =>
    intro other seen left unready needed edge
    obtain ⟨seen, left⟩ := faithful.closed_leave acyclic looked other seen left unready needed edge
    exact ⟨seen, List.not_mem_of_not_mem_cons left⟩
  case tried =>
    intro other seen left awaited met'
    dsimp only at met' ⊢
    rw [Pass.activity_initNow, called_init]
    by_cases top : other = id
    · exact .inr top
    · -- All that a settled module needs is settled, and the one that has just been called was not.
      refine .inl (faithful.tried other seen (List.not_mem_cons_of_ne_of_not_mem top left) awaited ?_)
      intro needed edge
      have settled := (faithful.closed_leave acyclic looked other seen left awaited.unready needed edge).2
      have ready := met' needed edge
      rw [isReady, if_neg (List.ne_of_not_mem_cons settled)] at ready
      exact ready
  case ordered =>
    dsimp only
    rw [Pass.activity_initNow]
    refine List.pairwise_append.mpr ⟨faithful.ordered, List.pairwise_singleton _ _, ?_⟩
    rintro first member second last id' needed answer' answer'' rfl rfl edge
    cases List.mem_singleton.mp last
    -- Whoever was called before had all that it needs ready, and this module was not.
    have ready := (faithful.called id' answer' member).2.2 id edge
    rw [asleep] at ready
    cases ready
  case looked => exact faithful.looked

theorem Faithful.poll {turn : ModuleId} {pass : Pass σ} {slot : Slot σ}
    (faithful : Faithful scheduler world ticks ⟨turn, [], pass⟩) (independent : Independent scheduler.units)
    (found : pass.scheduler.slots[turn]? = some slot) (looked : turn ∈ pass.visited) (due : pass.pollIsDue ticks slot = true) :
    Faithful scheduler world ticks ⟨turn + 1, [], pass.pollNow ticks turn slot⟩ := by
  have move : Move ticks ⟨turn, [], pass⟩ ⟨turn + 1, [], pass.pollNow ticks turn slot⟩ := .poll found looked due
  have isReady : (pass.pollNow ticks turn slot).scheduler.isReady = pass.scheduler.isReady := by
    funext other
    refine (isReady_put found _ other).trans ?_
    split
    next here => rw [here, isReady_of_found found]
    next => rfl
  constructor
  case sound => exact faithful.sound.move move
  case keeps => exact faithful.keeps.trans move.keeps
  case ready =>
    intro other
    dsimp only
    rw [isReady, faithful.ready]
    simp [Pass.pollNow]
  case untouched =>
    intro other slot' found' unready' uncalled
    obtain ⟨still, seen⟩ := faithful.untouched other slot' found' unready' (fun called => uncalled (called_poll.mpr called))
    -- Only a ready module is polled.
    have apart : other ≠ turn := by
      rintro rfl
      cases found.symm.trans still
      rw [Pass.pollIsDue, unready'] at due
      cases due
    have units : pass.scheduler.units = scheduler.units := faithful.keeps.units
    refine ⟨(slots_put found _ other).trans ((if_neg apart).trans still), Eq.trans ?_ seen⟩
    have known := units ▸ units_of_found found
    have known' := units ▸ units_of_found still
    exact independent.poll other turn slot'.unit slot.unit apart known' known pass.world
  case called =>
    intro other answer member
    dsimp only
    rw [isReady]
    refine faithful.called other answer ((List.mem_append.mp member).resolve_right ?_)
    intro new
    cases List.mem_singleton.mp new
  case closed => exact faithful.closed
  case tried =>
    intro other seen left awaited met
    dsimp only at met
    rw [isReady] at met
    exact called_poll.mpr (faithful.tried other seen left awaited met)
  case ordered =>
    refine List.pairwise_append.mpr ⟨faithful.ordered, List.pairwise_singleton _ _, ?_⟩
    rintro first _ second last id needed answer answer' _ rfl
    cases List.mem_singleton.mp last
  case looked =>
    intro other before
    rcases Nat.lt_succ_iff_lt_or_eq.mp before with earlier | rfl
    · exact faithful.looked other earlier
    · exact looked

theorem Faithful.move (faithful : Faithful scheduler world ticks first) (acyclic : scheduler.dependencies.Acyclic)
    (independent : Independent scheduler.units) (move : Move ticks first last) : Faithful scheduler world ticks last := by
  cases move with
  | skip fresh inside ready => exact faithful.skip (.skip fresh inside ready) fresh ready
  | enter fresh inside unready sought => exact faithful.enter (.enter fresh inside unready sought) fresh
  | leave found looked held => exact faithful.leave acyclic found looked held
  | init found looked met due => exact faithful.init acyclic independent found looked met due
  | pass _ looked =>
    refine { faithful with sound := { faithful.sound with }, looked := ?_ }
    intro other before
    rcases Nat.lt_succ_iff_lt_or_eq.mp before with earlier | rfl
    · exact faithful.looked other earlier
    · exact looked
  | poll found looked due => exact faithful.poll independent found looked due

theorem Faithful.moves (faithful : Faithful scheduler world ticks first) (acyclic : scheduler.dependencies.Acyclic)
    (independent : Independent scheduler.units) (moves : Moves ticks first last) : Faithful scheduler world ticks last := by
  induction moves with
  | refl => exact faithful
  | tail _ move ih => exact ih.move acyclic independent move

end Faithful

end Hopline.Scheduler

import Hopline.Proofs.Schedule.Moves

/-! The modules that a step is in the middle of bringing up. None of them has been called yet, and as each is needed
by the one behind it, they are told apart by the dependencies alone. -/

namespace Hopline.Scheduler

open Schedule Relation

variable {σ : Type}

/-- The module has been called to come up. -/
def Called (activity : List Activity) (id : ModuleId) : Prop := ∃ answer, Activity.init id answer ∈ activity

section Called

variable {activity : List Activity} {id other : ModuleId} {answer : Bool}

theorem called_init : Called (activity ++ [.init id answer]) other ↔ Called activity other ∨ other = id := by
  simp [Called, exists_or]

theorem called_poll : Called (activity ++ [.poll id]) other ↔ Called activity other := by
  simp [Called]

end Called

structure Stage.Sound (stage : Stage σ) : Prop where
  visited : ∀ id ∈ stage.path, id ∈ stage.pass.visited
  unready : ∀ id ∈ stage.path, stage.pass.scheduler.isReady id = false
  uncalled : ∀ id ∈ stage.path, ¬ Called stage.pass.activity id
  called : ∀ id, Called stage.pass.activity id → id ∈ stage.pass.visited
  distinct : stage.path.Nodup
  sought : stage.path.Pairwise fun id behind => TransGen stage.pass.scheduler.dependencies.Edge behind id

/-- Whatever the foremost module needs is not on the path. -/
theorem Stage.Sound.needed_not_mem {turn id needed : ModuleId} {path : List ModuleId} {pass : Pass σ}
    (sound : Stage.Sound ⟨turn, id :: path, pass⟩) (acyclic : pass.scheduler.dependencies.Acyclic)
    (edge : pass.scheduler.dependencies.Edge id needed) : needed ∉ id :: path := by
  intro member
  rcases List.mem_cons.mp member with rfl | behind
  · exact acyclic needed (.single edge)
  · exact acyclic needed (((List.pairwise_cons.mp sound.sought).1 needed behind).tail edge)

theorem Stage.Sound.enter {turn id : ModuleId} {path : List ModuleId} {pass : Pass σ} (sound : Stage.Sound ⟨turn, path, pass⟩)
    (fresh : id ∉ pass.visited) (unready : pass.scheduler.isReady id = false)
    (sought : ∀ top ∈ path.head?, pass.scheduler.dependencies.Edge top id) : Stage.Sound ⟨turn, id :: path, pass.mark id⟩ := by
  constructor
  case visited =>
    intro other member
    rcases List.mem_cons.mp member with rfl | member
    · exact List.mem_cons_self
    · exact List.mem_cons_of_mem _ (sound.visited other member)
  case unready =>
    intro other member
    rcases List.mem_cons.mp member with rfl | member
    · exact unready
    · exact sound.unready other member
  case uncalled =>
    intro other member called
    rcases List.mem_cons.mp member with rfl | member
    · exact fresh (sound.called other called)
    · exact sound.uncalled other member called
  case called => exact fun other called => List.mem_cons_of_mem _ (sound.called other called)
  case distinct => exact List.nodup_cons.mpr ⟨fun member => fresh (sound.visited id member), sound.distinct⟩
  case sought =>
    refine List.pairwise_cons.mpr ⟨?_, sound.sought⟩
    cases path with
    | nil => exact List.forall_mem_nil _
    | cons top rest =>
      -- The top of the path needs the new module, and everything behind it needs the top.
      have edge := sought top rfl
      intro behind member
      rcases List.mem_cons.mp member with rfl | member
      · exact .single edge
      · exact ((List.pairwise_cons.mp sound.sought).1 behind member).tail edge

theorem Stage.Sound.leave {turn id : ModuleId} {path : List ModuleId} {pass : Pass σ}
    (sound : Stage.Sound ⟨turn, id :: path, pass⟩) : Stage.Sound ⟨turn, path, pass⟩ :=
  ⟨fun other member => sound.visited other (List.mem_cons_of_mem _ member),
    fun other member => sound.unready other (List.mem_cons_of_mem _ member),
    fun other member => sound.uncalled other (List.mem_cons_of_mem _ member), sound.called,
    (List.nodup_cons.mp sound.distinct).2, (List.pairwise_cons.mp sound.sought).2⟩

variable [Journal σ] {ticks : UInt32} {first last : Stage σ}

theorem sound_start (scheduler : Scheduler σ) (world : σ) (ticks : UInt32) :
    Stage.Sound ⟨0, [], scheduler.after world ticks 0⟩ := by
  refine ⟨nofun, nofun, nofun, ?_, List.nodup_nil, List.Pairwise.nil⟩
  rintro id ⟨answer, ⟨⟩⟩

theorem Stage.Sound.init {turn id : ModuleId} {path : List ModuleId} {pass : Pass σ} {slot : Slot σ}
    (sound : Stage.Sound ⟨turn, id :: path, pass⟩) (found : pass.scheduler.slots[id]? = some slot) :
    Stage.Sound ⟨turn, path, pass.initNow ticks id slot⟩ := by
  have apart : ∀ other ∈ path, other ≠ id := by
    rintro other member rfl
    exact (List.nodup_cons.mp sound.distinct).1 member
  constructor
  case visited => exact sound.leave.visited
  case unready =>
    intro other member
    exact (isReady_put found _ other).trans ((if_neg (apart other member)).trans (sound.leave.unready other member))
  case uncalled =>
    intro other member called
    rcases called_init.mp called with old | same
    · exact sound.leave.uncalled other member old
    · exact apart other member same
  case called =>
    intro other called
    rcases called_init.mp called with old | rfl
    · exact sound.called other old
    · exact sound.visited other List.mem_cons_self
  case distinct => exact sound.leave.distinct
  case sought => exact sound.leave.sought

theorem Stage.Sound.move (sound : first.Sound) (move : Move ticks first last) : last.Sound := by
  cases move with
  | skip =>
    exact { sound with
      visited := fun id member => List.mem_cons_of_mem _ (sound.visited id member)
      called := fun id called => List.mem_cons_of_mem _ (sound.called id called) }
  | enter fresh _ unready sought => exact sound.enter fresh unready sought
  | leave => exact sound.leave
  | init found => exact sound.init found
  | pass => exact { sound with }
  | poll found =>
    refine ⟨nofun, nofun, nofun, ?_, List.nodup_nil, List.Pairwise.nil⟩
    exact fun id called => sound.called id (called_poll.mp called)

end Hopline.Scheduler

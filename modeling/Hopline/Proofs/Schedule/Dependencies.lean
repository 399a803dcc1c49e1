import Hopline.Proofs.Schedule.CycleSearch
import Hopline.Proofs.Schedule.Moves

/-! The dependencies of a scheduler after any requests at all. They never form a cycle, and a request for a new
one is turned down exactly if it would close one; a request that is turned down leaves no trace. -/

namespace Hopline.Scheduler

open Schedule Relation

variable {σ : Type}

inductive Request (σ : Type)
  | add (unit : Module σ)
  | depend (source target : ModuleId)
  | step (ticks : UInt32)

/-- A call of a module, and what was so when it was made. -/
structure Entry where
  step : Nat
  ticks : UInt32
  dependencies : Graph
  activity : Activity

/-- A scheduler in use, with all calls that it has made. -/
structure Run (σ : Type) where
  scheduler : Scheduler σ
  world : σ
  steps : Nat
  log : List Entry

namespace Run

def start (maxModules : Nat) (world : σ) : Run σ :=
  { scheduler := empty maxModules, world, steps := 0, log := [] }

def entry (run : Run σ) (ticks : UInt32) (activity : Activity) : Entry :=
  { step := run.steps, ticks, dependencies := run.scheduler.dependencies, activity }

def after [Journal σ] (run : Run σ) : Request σ → Run σ
  | .add unit => { run with scheduler := (run.scheduler.add unit).1 }
  | .depend source target => { run with scheduler := (run.scheduler.depend source target).1 }
  | .step ticks =>
    let pass := run.scheduler.step run.world ticks
    { scheduler := pass.scheduler
      world := pass.world
      steps := run.steps + 1
      log := run.log ++ pass.activity.map (run.entry ticks) }

end Run

structure WellFormed (scheduler : Scheduler σ) : Prop where
  length : scheduler.dependencies.length = scheduler.slots.length
  edges : ∀ source target, scheduler.dependencies.Edge source target →
    source < scheduler.slots.length ∧ target < scheduler.slots.length
  distinct : ∀ id, (scheduler.dependencies.successors id).Nodup
  acyclic : scheduler.dependencies.Acyclic

/-- All that asking for a dependency can come to. -/
inductive Dependence (scheduler : Scheduler σ) (source target : ModuleId) :
    Scheduler σ × Except ScheduleError Unit → Prop
  | unknownSource (outside : scheduler.slots.length ≤ source) :
      Dependence scheduler source target (scheduler, .error (.unknownModule source))
  | unknownTarget (known : source < scheduler.slots.length) (outside : scheduler.slots.length ≤ target) :
      Dependence scheduler source target (scheduler, .error (.unknownModule target))
  | present (known : source < scheduler.slots.length) (known' : target < scheduler.slots.length)
      (edge : scheduler.dependencies.Edge source target) : Dependence scheduler source target (scheduler, .ok ())
  | cyclic (known : source < scheduler.slots.length) (known' : target < scheduler.slots.length)
      (new : ¬ scheduler.dependencies.Edge source target) (back : scheduler.dependencies.Reaches target source) :
      Dependence scheduler source target
        (scheduler, .error (.cyclicDependency (scheduler.nameOf source) (scheduler.nameOf target)))
  | added (known : source < scheduler.slots.length) (known' : target < scheduler.slots.length)
      (new : ¬ scheduler.dependencies.Edge source target) (apart : ¬ scheduler.dependencies.Reaches target source) :
      Dependence scheduler source target
        ({ scheduler with dependencies := scheduler.dependencies.addEdge source target }, .ok ())

variable {scheduler : Scheduler σ}

theorem WellFormed.inside (wellFormed : scheduler.WellFormed) : scheduler.Inside :=
  fun source target edge => (wellFormed.edges source target edge).2

theorem WellFormed.dependence (wellFormed : scheduler.WellFormed) (source target : ModuleId) :
    scheduler.Dependence source target (scheduler.depend source target) := by
  unfold depend
  split
  next outside => exact .unknownSource outside
  next known =>
  replace known := Nat.lt_of_not_le known
  split
  next outside => exact .unknownTarget known outside
  next known' =>
  replace known' := Nat.lt_of_not_le known'
  split
  next edge => exact .present known known' (List.contains_iff_mem.mp edge)
  next new =>
  replace new : ¬ scheduler.dependencies.Edge source target := fun edge => new (List.contains_iff_mem.mpr edge)
  have inside : source < scheduler.dependencies.length := wellFormed.length ▸ known
  have judged : (scheduler.dependencies.addEdge source target).hasCycle = false ↔ ¬ scheduler.dependencies.Reaches target source := by
    rw [Graph.hasCycle_eq_false_iff]
    exact Graph.acyclic_addEdge wellFormed.acyclic inside
  cases cycle : (scheduler.dependencies.addEdge source target).hasCycle with
  | true =>
    have back : scheduler.dependencies.Reaches target source := by
      by_contra apart
      rw [judged.mpr apart] at cycle
      cases cycle
    simp only [cycle, if_true, Graph.dropEdge_addEdge]
    exact .cyclic known known' new back
  | false =>
    simp only [cycle, Bool.false_eq_true, if_false]
    exact .added known known' new (judged.mp cycle)

theorem wellFormed_empty (maxModules : Nat) : (empty maxModules : Scheduler σ).WellFormed := by
  have none : ∀ {source target}, ¬ Graph.Edge [] source target := fun edge => Nat.not_lt_zero _ edge.source_lt
  refine ⟨rfl, fun _ _ edge => absurd edge none, fun _ => List.nodup_nil, ?_⟩
  intro vertex cycle
  obtain ⟨next, edge, -⟩ := TransGen.head'_iff.mp cycle
  exact none edge

theorem WellFormed.add (wellFormed : scheduler.WellFormed) (unit : Module σ) : (scheduler.add unit).1.WellFormed := by
  unfold Scheduler.add
  split
  next => exact wellFormed
  next =>
    have same : Graph.Edge (scheduler.dependencies ++ [[]]) = scheduler.dependencies.Edge := by
      funext source target
      exact propext Graph.edge_append_nil
    constructor
    · simp [wellFormed.length]
    · intro source target edge
      rw [same] at edge
      obtain ⟨known, known'⟩ := wellFormed.edges source target edge
      simp only [List.length_append, List.length_singleton]
      omega
    · intro id
      rw [Graph.successors_append_nil]
      exact wellFormed.distinct id
    · unfold Graph.Acyclic
      rw [same]
      exact wellFormed.acyclic

theorem WellFormed.depend (wellFormed : scheduler.WellFormed) (source target : ModuleId) :
    (scheduler.depend source target).1.WellFormed := by
  have ends := wellFormed.dependence source target
  revert ends
  generalize scheduler.depend source target = answer
  intro ends
  cases ends with
  | unknownSource | unknownTarget | present | cyclic => exact wellFormed
  | added known known' new apart =>
    have inside : source < scheduler.dependencies.length := wellFormed.length ▸ known
    constructor
    · rw [Graph.length_addEdge, wellFormed.length]
    · intro first second edge
      rcases (Graph.edge_addEdge inside).mp edge with old | ⟨rfl, rfl⟩
      · exact wellFormed.edges first second old
      · exact ⟨known, known'⟩
    · intro id
      rw [Graph.successors_addEdge inside]
      split
      next => exact List.nodup_append.mpr ⟨wellFormed.distinct source, List.nodup_singleton _, by
        intro first member second last same
        rw [List.mem_singleton.mp last] at same
        exact new (same ▸ member)⟩
      next => exact wellFormed.distinct id
    · exact (Graph.acyclic_addEdge wellFormed.acyclic inside).mpr apart

theorem WellFormed.of_keeps {before after : Pass σ} (wellFormed : before.scheduler.WellFormed) (keeps : Keeps before after) :
    after.scheduler.WellFormed := by
  constructor
  · rw [keeps.dependencies, keeps.length, wellFormed.length]
  · rw [keeps.dependencies, keeps.length]
    exact wellFormed.edges
  · rw [keeps.dependencies]
    exact wellFormed.distinct
  · rw [keeps.dependencies]
    exact wellFormed.acyclic

variable [Journal σ]

theorem WellFormed.step (wellFormed : scheduler.WellFormed) (world : σ) (ticks : UInt32) :
    (scheduler.step world ticks).scheduler.WellFormed := by
  have before : (scheduler.after world ticks 0).scheduler.WellFormed := wellFormed
  exact before.of_keeps (moves_after wellFormed.inside (Nat.le_refl _)).keeps

theorem Run.wellFormed_after {run : Run σ} (wellFormed : run.scheduler.WellFormed) (request : Request σ) :
    (run.after request).scheduler.WellFormed := by
  cases request with
  | add unit => exact wellFormed.add unit
  | depend source target => exact wellFormed.depend source target
  | step ticks => exact wellFormed.step run.world ticks

theorem Run.wellFormed_run (maxModules : Nat) (world : σ) (requests : List (Request σ)) :
    (requests.foldl Run.after (.start maxModules world)).scheduler.WellFormed := by
  induction requests using List.reverseRecOn with
  | nil => exact wellFormed_empty maxModules
  | append_singleton requests request ih =>
    rw [List.foldl_append]
    exact Run.wellFormed_after ih request

/-- What the answer to a request for a dependency tells, and what the request leaves. -/
structure Judges (scheduler : Scheduler σ) (source target : ModuleId) (after : Scheduler σ)
    (answer : Except ScheduleError Unit) : Prop where
  unknownSource : scheduler.slots.length ≤ source → answer = .error (.unknownModule source)
  unknownTarget : source < scheduler.slots.length → scheduler.slots.length ≤ target →
    answer = .error (.unknownModule target)
  accepted : source < scheduler.slots.length → target < scheduler.slots.length →
    (answer = .ok () ↔
      scheduler.dependencies.Edge source target ∨ ¬ scheduler.dependencies.Reaches target source)
  cyclic : source < scheduler.slots.length → target < scheduler.slots.length → answer ≠ .ok () →
    answer = .error (.cyclicDependency (scheduler.nameOf source) (scheduler.nameOf target))
  itself : source = target → answer ≠ .ok ()
  edges : answer = .ok () → ∀ first second, after.dependencies.Edge first second ↔
    scheduler.dependencies.Edge first second ∨ first = source ∧ second = target
  modules : after.slots = scheduler.slots ∧ after.maxModules = scheduler.maxModules
  unchanged : ∀ error, answer = .error error → after = scheduler

/-- What the answer to a request to add a module tells, and what the request leaves. -/
structure Admits (scheduler : Scheduler σ) (unit : Module σ) (after : Scheduler σ)
    (answer : Except ScheduleError ModuleId) : Prop where
  full : scheduler.maxModules ≤ scheduler.slots.length → answer = .error (.tooManyModules scheduler.maxModules)
  room : scheduler.slots.length < scheduler.maxModules → answer = .ok scheduler.slots.length ∧
    after.slots = scheduler.slots ++ [{ unit, ready := false, lastInit := none, lastPoll := none }]
  edges : ∀ first second, after.dependencies.Edge first second ↔ scheduler.dependencies.Edge first second
  unchanged : ∀ error, answer = .error error → after = scheduler

omit [Journal σ] in
theorem WellFormed.judges (wellFormed : scheduler.WellFormed) (source target : ModuleId) :
    scheduler.Judges source target (scheduler.depend source target).1 (scheduler.depend source target).2 := by
  have ends := wellFormed.dependence source target
  revert ends
  generalize scheduler.depend source target = answer
  intro ends
  cases ends with
  | unknownSource outside =>
    have unknown : ¬ source < scheduler.slots.length := Nat.not_lt.mpr outside
    exact ⟨fun _ => rfl, fun known => absurd known unknown, fun known => absurd known unknown,
      fun known => absurd known unknown, fun _ => nofun, nofun, ⟨rfl, rfl⟩, fun _ _ => rfl⟩
  | unknownTarget known outside =>
    have unknown : ¬ target < scheduler.slots.length := Nat.not_lt.mpr outside
    exact ⟨fun outside => absurd known (Nat.not_lt.mpr outside), fun _ _ => rfl, fun _ known => absurd known unknown,
      fun _ known => absurd known unknown, fun _ => nofun, nofun, ⟨rfl, rfl⟩, fun _ _ => rfl⟩
  | present known known' edge =>
    have inside := Nat.not_le.mpr known
    have inside' := Nat.not_le.mpr known'
    refine ⟨fun outside => absurd outside inside, fun _ outside => absurd outside inside',
      fun _ _ => ⟨fun _ => .inl edge, fun _ => rfl⟩, fun _ _ refused => absurd rfl refused, ?_, ?_, ⟨rfl, rfl⟩, nofun⟩
    · rintro rfl
      exact absurd (.single edge) (wellFormed.acyclic source)
    · intro _ first second
      refine ⟨.inl, ?_⟩
      rintro (old | ⟨rfl, rfl⟩)
      · exact old
      · exact edge
  | cyclic known known' new back =>
    have inside := Nat.not_le.mpr known
    have inside' := Nat.not_le.mpr known'
    refine ⟨fun outside => absurd outside inside, fun _ outside => absurd outside inside',
      fun _ _ => ⟨nofun, ?_⟩, fun _ _ _ => rfl, fun _ => nofun, nofun, ⟨rfl, rfl⟩, fun _ _ => rfl⟩
    rintro (edge | apart)
    · exact absurd edge new
    · exact absurd back apart
  | added known known' new apart =>
    have inside := Nat.not_le.mpr known
    have inside' := Nat.not_le.mpr known'
    refine ⟨fun outside => absurd outside inside, fun _ outside => absurd outside inside',
      fun _ _ => ⟨fun _ => .inr apart, fun _ => rfl⟩, fun _ _ refused => absurd rfl refused, ?_, ?_, ⟨rfl, rfl⟩, nofun⟩
    · rintro rfl
      exact absurd .refl apart
    · intro _ first second
      exact Graph.edge_addEdge (wellFormed.length ▸ known)

omit [Journal σ] in
theorem admits (scheduler : Scheduler σ) (unit : Module σ) :
    scheduler.Admits unit (scheduler.add unit).1 (scheduler.add unit).2 := by
  unfold Scheduler.add
  split
  next full =>
    exact ⟨fun _ => rfl, fun room => absurd room (Nat.not_lt.mpr full), fun _ _ => Iff.rfl, fun _ _ => rfl⟩
  next room =>
    exact ⟨fun full => absurd full room, fun _ => ⟨rfl, rfl⟩, fun _ _ => Graph.edge_append_nil, nofun⟩

/-- After any requests the dependencies are in order, and each further request is judged by them alone. -/
theorem requests_judged (maxModules : Nat) (world : σ) (requests : List (Request σ)) :
    let scheduler := (requests.foldl Run.after (.start maxModules world)).scheduler
    scheduler.WellFormed ∧
    (∀ source target,
      scheduler.Judges source target (scheduler.depend source target).1 (scheduler.depend source target).2) ∧
    ∀ unit, scheduler.Admits unit (scheduler.add unit).1 (scheduler.add unit).2 := by
  intro scheduler
  have wellFormed : scheduler.WellFormed := Run.wellFormed_run maxModules world requests
  exact ⟨wellFormed, wellFormed.judges, scheduler.admits⟩

end Hopline.Scheduler

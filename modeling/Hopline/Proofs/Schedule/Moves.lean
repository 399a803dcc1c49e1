import Hopline.Proofs.Schedule.Paths
import Hopline.Schedule.Scheduler
import Mathlib.Data.Finset.Card
import Mathlib.Data.Finset.Filter
import Mathlib.Data.Finset.Range

/-! A step as a sequence of moves, each of which looks at one module. The depth that bounds the search in the
scheduler is always enough, so a module is left only after all that it needs has been looked at. -/

namespace Hopline.Scheduler

open Schedule Relation

variable {σ : Type}

def units (scheduler : Scheduler σ) : List (Module σ) := scheduler.slots.map Slot.unit

theorem length_units (scheduler : Scheduler σ) : scheduler.units.length = scheduler.slots.length := List.length_map _

def put (scheduler : Scheduler σ) (id : ModuleId) (slot : Slot σ) : Scheduler σ :=
  { scheduler with slots := scheduler.slots.set id slot }

section Put

variable {scheduler : Scheduler σ} {id other : ModuleId} {slot found : Slot σ}

theorem lt_of_found (found : scheduler.slots[id]? = some slot) : id < scheduler.slots.length :=
  (List.getElem?_eq_some_iff.mp found).1

theorem slots_put (old : scheduler.slots[id]? = some found) (slot : Slot σ) (other : ModuleId) :
    (scheduler.put id slot).slots[other]? = if other = id then some slot else scheduler.slots[other]? := by
  have inside := lt_of_found old
  simp only [put, List.getElem?_set]
  split
  next same => simp [same]
  next apart => simp [Ne.symm apart]

theorem units_of_found (found : scheduler.slots[id]? = some slot) : scheduler.units[id]? = some slot.unit := by
  rw [units, List.getElem?_map, found]
  rfl

theorem isReady_of_found (found : scheduler.slots[id]? = some slot) : scheduler.isReady id = slot.ready := by
  simp [isReady, found]

theorem isReady_put (old : scheduler.slots[id]? = some found) (slot : Slot σ) (other : ModuleId) :
    (scheduler.put id slot).isReady other = if other = id then slot.ready else scheduler.isReady other := by
  unfold isReady
  rw [slots_put old]
  split <;> rfl

theorem units_put (old : scheduler.slots[id]? = some found) (same : slot.unit = found.unit) :
    (scheduler.put id slot).units = scheduler.units := by
  apply List.ext_getElem?
  intro other
  unfold units
  rw [List.getElem?_map, List.getElem?_map, slots_put old]
  split
  next equal => simp [equal, old, same]
  next => rfl

end Put

namespace Pass

def mark (pass : Pass σ) (id : ModuleId) : Pass σ := { pass with visited := id :: pass.visited }

def unvisited (pass : Pass σ) : Finset ModuleId :=
  (Finset.range pass.scheduler.slots.length).filter (· ∉ pass.visited)

/-- Brings a module up. -/
def initNow [Journal σ] (pass : Pass σ) (ticks : UInt32) (id : ModuleId) (slot : Slot σ) : Pass σ :=
  let (world, ready) := slot.unit.init pass.world
  { pass with
    scheduler := pass.scheduler.put id { slot with ready, lastInit := some ticks }
    world := if ready then Journal.note (.moduleReady slot.unit.name) world else world
    activity := pass.activity ++ [.init id ready] }

def pollNow (pass : Pass σ) (ticks : UInt32) (id : ModuleId) (slot : Slot σ) : Pass σ :=
  { pass with
    scheduler := pass.scheduler.put id { slot with lastPoll := some ticks }
    world := slot.unit.poll pass.world
    activity := pass.activity ++ [.poll id] }

def initDue (pass : Pass σ) (ticks : UInt32) (slot : Slot σ) : Bool :=
  due slot.lastInit ticks (slot.unit.period pass.world)

def pollIsDue (pass : Pass σ) (ticks : UInt32) (slot : Slot σ) : Bool :=
  slot.ready && due slot.lastPoll ticks (slot.unit.period pass.world)

theorem scheduler_initNow [Journal σ] (pass : Pass σ) (ticks : UInt32) (id : ModuleId) (slot : Slot σ) :
    (pass.initNow ticks id slot).scheduler =
      pass.scheduler.put id { slot with ready := (slot.unit.init pass.world).2, lastInit := some ticks } := rfl

theorem activity_initNow [Journal σ] (pass : Pass σ) (ticks : UInt32) (id : ModuleId) (slot : Slot σ) :
    (pass.initNow ticks id slot).activity = pass.activity ++ [.init id (slot.unit.init pass.world).2] := rfl

/-- A view of the world that shows no notes shows only what the module did. -/
theorem view_initNow [Journal σ] {τ : Type} {view : σ → τ} (hidden : ∀ event world, view (Journal.note event world) = view world)
    (pass : Pass σ) (ticks : UInt32) (id : ModuleId) (slot : Slot σ) :
    view (pass.initNow ticks id slot).world = view (slot.unit.init pass.world).1 := by
  simp only [initNow]
  split
  next => exact hidden _ _
  next => rfl

variable {pass : Pass σ} {id : ModuleId} {slot : Slot σ}

theorem start_of_found [Journal σ] (ticks : UInt32) (found : pass.scheduler.slots[id]? = some slot) :
    pass.start ticks id = if pass.initDue ticks slot then pass.initNow ticks id slot else pass := by
  simp only [start, found]
  rfl

theorem pollDue_of_found (ticks : UInt32) (found : pass.scheduler.slots[id]? = some slot) :
    pass.pollDue ticks id = if pass.pollIsDue ticks slot then pass.pollNow ticks id slot else pass := by
  simp only [pollDue, found]
  rfl

end Pass

/-- A step under way. The path holds the modules that are being brought up, each for the sake of the one
behind it. -/
structure Stage (σ : Type) where
  turn : ModuleId
  path : List ModuleId
  pass : Pass σ

inductive Move [Journal σ] (ticks : UInt32) : Stage σ → Stage σ → Prop
  | skip {turn : ModuleId} {path : List ModuleId} {pass : Pass σ} {id : ModuleId} (fresh : id ∉ pass.visited)
      (inside : id < pass.scheduler.slots.length) (ready : pass.scheduler.isReady id = true) :
      Move ticks ⟨turn, path, pass⟩ ⟨turn, path, pass.mark id⟩
  | enter {turn : ModuleId} {path : List ModuleId} {pass : Pass σ} {id : ModuleId} (fresh : id ∉ pass.visited)
      (inside : id < pass.scheduler.slots.length) (unready : pass.scheduler.isReady id = false)
      (sought : ∀ top ∈ path.head?, pass.scheduler.dependencies.Edge top id) :
      Move ticks ⟨turn, path, pass⟩ ⟨turn, id :: path, pass.mark id⟩
  | leave {turn : ModuleId} {path : List ModuleId} {pass : Pass σ} {id : ModuleId} {slot : Slot σ}
      (found : pass.scheduler.slots[id]? = some slot)
      (looked : ∀ needed ∈ pass.scheduler.dependencies.successors id, needed ∈ pass.visited)
      (held : (∀ needed ∈ pass.scheduler.dependencies.successors id, pass.scheduler.isReady needed = true) →
        pass.initDue ticks slot = false) :
      Move ticks ⟨turn, id :: path, pass⟩ ⟨turn, path, pass⟩
  | init {turn : ModuleId} {path : List ModuleId} {pass : Pass σ} {id : ModuleId} {slot : Slot σ}
      (found : pass.scheduler.slots[id]? = some slot)
      (looked : ∀ needed ∈ pass.scheduler.dependencies.successors id, needed ∈ pass.visited)
      (met : ∀ needed ∈ pass.scheduler.dependencies.successors id, pass.scheduler.isReady needed = true)
      (due : pass.initDue ticks slot = true) :
      Move ticks ⟨turn, id :: path, pass⟩ ⟨turn, path, pass.initNow ticks id slot⟩
  | pass {turn : ModuleId} {pass : Pass σ} {slot : Slot σ} (found : pass.scheduler.slots[turn]? = some slot)
      (looked : turn ∈ pass.visited) (held : pass.pollIsDue ticks slot = false) :
      Move ticks ⟨turn, [], pass⟩ ⟨turn + 1, [], pass⟩
  | poll {turn : ModuleId} {pass : Pass σ} {slot : Slot σ} (found : pass.scheduler.slots[turn]? = some slot)
      (looked : turn ∈ pass.visited) (due : pass.pollIsDue ticks slot = true) :
      Move ticks ⟨turn, [], pass⟩ ⟨turn + 1, [], pass.pollNow ticks turn slot⟩

abbrev Moves [Journal σ] (ticks : UInt32) : Stage σ → Stage σ → Prop := ReflTransGen (Move ticks)

/-- What no move changes or takes back. -/
structure Keeps (before after : Pass σ) : Prop where
  units : after.scheduler.units = before.scheduler.units
  dependencies : after.scheduler.dependencies = before.scheduler.dependencies
  maxModules : after.scheduler.maxModules = before.scheduler.maxModules
  visited : before.visited ⊆ after.visited
  activity : before.activity <+: after.activity

section Keeps

variable {before middle after : Pass σ}

theorem Keeps.refl (pass : Pass σ) : Keeps pass pass := ⟨rfl, rfl, rfl, List.Subset.refl _, List.prefix_rfl⟩

theorem Keeps.trans (first : Keeps before middle) (second : Keeps middle after) : Keeps before after :=
  ⟨second.units.trans first.units, second.dependencies.trans first.dependencies,
    second.maxModules.trans first.maxModules, List.Subset.trans first.visited second.visited,
    first.activity.trans second.activity⟩

theorem Keeps.length (keeps : Keeps before after) : after.scheduler.slots.length = before.scheduler.slots.length := by
  rw [← length_units, keeps.units, length_units]

theorem Keeps.unvisited_subset (keeps : Keeps before after) : after.unvisited ⊆ before.unvisited := by
  intro id member
  simp only [Pass.unvisited, Finset.mem_filter, Finset.mem_range] at member ⊢
  exact ⟨keeps.length ▸ member.1, fun seen => member.2 (keeps.visited seen)⟩

end Keeps

/-- All dependencies are on modules that exist. -/
def Inside (scheduler : Scheduler σ) : Prop :=
  ∀ source target, scheduler.dependencies.Edge source target → target < scheduler.slots.length

theorem Keeps.inside {before after : Pass σ} (keeps : Keeps before after) (inside : before.scheduler.Inside) :
    after.scheduler.Inside := by
  intro source target edge
  rw [keeps.dependencies] at edge
  rw [keeps.length]
  exact inside source target edge

theorem Pass.card_unvisited_mark {pass : Pass σ} {id : ModuleId} (inside : id < pass.scheduler.slots.length)
    (fresh : id ∉ pass.visited) : (pass.mark id).unvisited.card < pass.unvisited.card := by
  apply Finset.card_lt_card
  refine ⟨?_, ?_⟩
  · intro other member
    simp only [unvisited, mark, Finset.mem_filter, Finset.mem_range, List.mem_cons, not_or] at member ⊢
    exact ⟨member.1, member.2.2⟩
  · intro all
    have still : id ∈ (pass.mark id).unvisited := all (by simp [unvisited, inside, fresh])
    simp [unvisited, mark] at still

variable [Journal σ] {ticks : UInt32} {first last : Stage σ}

theorem Move.keeps (move : Move ticks first last) : Keeps first.pass last.pass := by
  cases move with
  | skip => exact ⟨rfl, rfl, rfl, List.subset_cons_self _ _, List.prefix_rfl⟩
  | enter => exact ⟨rfl, rfl, rfl, List.subset_cons_self _ _, List.prefix_rfl⟩
  | leave => exact .refl _
  | init found => exact ⟨units_put found rfl, rfl, rfl, List.Subset.refl _, List.prefix_append _ _⟩
  | pass => exact .refl _
  | poll found => exact ⟨units_put found rfl, rfl, rfl, List.Subset.refl _, List.prefix_append _ _⟩

theorem Moves.keeps (moves : Moves ticks first last) : Keeps first.pass last.pass := by
  induction moves with
  | refl => exact .refl _
  | tail _ move ih => exact ih.trans move.keeps

/-- At this depth a module is looked at by way of moves. -/
def LooksAt (ticks : UInt32) (depth : Nat) : Prop :=
  ∀ (turn : ModuleId) (path : List ModuleId) (id : ModuleId) (pass : Pass σ), pass.scheduler.Inside →
    id < pass.scheduler.slots.length → pass.unvisited.card ≤ depth →
    (∀ top ∈ path.head?, pass.scheduler.dependencies.Edge top id) →
    Moves ticks ⟨turn, path, pass⟩ ⟨turn, path, pass.bringUp ticks depth id⟩ ∧
      id ∈ (pass.bringUp ticks depth id).visited

theorem LooksAt.all {depth : Nat} (looksAt : LooksAt (σ := σ) ticks depth) (turn : ModuleId) (path : List ModuleId)
    (ids : List ModuleId) (pass : Pass σ) (inside : pass.scheduler.Inside)
    (present : ∀ id ∈ ids, id < pass.scheduler.slots.length) (enough : pass.unvisited.card ≤ depth)
    (sought : ∀ id ∈ ids, ∀ top ∈ path.head?, pass.scheduler.dependencies.Edge top id) :
    Moves ticks ⟨turn, path, pass⟩ ⟨turn, path, pass.bringUpAll ticks depth ids⟩ ∧
      ∀ id ∈ ids, id ∈ (pass.bringUpAll ticks depth ids).visited := by
  induction ids generalizing pass with
  | nil =>
    rw [Pass.bringUpAll]
    exact ⟨.refl, List.forall_mem_nil _⟩
  | cons id rest ih =>
    obtain ⟨moves, looked⟩ := looksAt turn path id pass inside (present id List.mem_cons_self) enough
      (sought id List.mem_cons_self)
    have keeps := moves.keeps
    have fewer := Finset.card_le_card keeps.unvisited_subset
    obtain ⟨moves', looked'⟩ := ih (pass.bringUp ticks depth id) (keeps.inside inside)
      (by
        intro other member
        rw [keeps.length]
        exact present other (List.mem_cons_of_mem _ member))
      (fewer.trans enough)
      (by
        intro other member top head
        rw [keeps.dependencies]
        exact sought other (List.mem_cons_of_mem _ member) top head)
    rw [Pass.bringUpAll]
    refine ⟨moves.trans moves', ?_⟩
    intro other member
    rcases List.mem_cons.mp member with rfl | member
    · exact moves'.keeps.visited looked
    · exact looked' other member

section BringUp

variable {pass : Pass σ} {id : ModuleId}

theorem bringUp_of_visited (depth : Nat) (seen : id ∈ pass.visited) : pass.bringUp ticks (depth + 1) id = pass := by
  rw [Pass.bringUp, if_pos (List.contains_iff_mem.mpr seen)]

theorem bringUp_of_ready (depth : Nat) (fresh : id ∉ pass.visited) (ready : pass.scheduler.isReady id = true) :
    pass.bringUp ticks (depth + 1) id = pass.mark id := by
  rw [Pass.bringUp, if_neg (fun seen => fresh (List.contains_iff_mem.mp seen))]
  exact if_pos ready

theorem bringUp_of_unready (depth : Nat) (fresh : id ∉ pass.visited) (unready : pass.scheduler.isReady id = false) :
    pass.bringUp ticks (depth + 1) id =
      let needed := pass.scheduler.dependencies.successors id
      let tried := (pass.mark id).bringUpAll ticks depth needed
      if needed.all tried.scheduler.isReady then tried.start ticks id else tried := by
  rw [Pass.bringUp, if_neg (fun seen => fresh (List.contains_iff_mem.mp seen))]
  exact if_neg (by rw [Bool.not_eq_true]; exact unready)

end BringUp

/-- What is left to do for a module after its dependencies have been looked at is one move. -/
theorem exists_move_of_looked {pass : Pass σ} {id : ModuleId} (ticks : UInt32) (turn : ModuleId) (path : List ModuleId)
    (inside : id < pass.scheduler.slots.length)
    (looked : ∀ needed ∈ pass.scheduler.dependencies.successors id, needed ∈ pass.visited) :
    Move ticks ⟨turn, id :: path, pass⟩ ⟨turn, path,
      if (pass.scheduler.dependencies.successors id).all pass.scheduler.isReady then pass.start ticks id else pass⟩ := by
  have found := List.getElem?_eq_getElem inside
  split
  next met =>
    replace met := List.all_eq_true.mp met
    rw [Pass.start_of_found ticks found]
    split
    next due => exact .init found looked met due
    next early => exact .leave found looked fun _ => Bool.eq_false_iff.mpr early
  next unmet => exact .leave found looked fun met => absurd (List.all_eq_true.mpr met) unmet

theorem looksAt (ticks : UInt32) (depth : Nat) : LooksAt (σ := σ) ticks depth := by
  induction depth with
  | zero =>
    intro turn path id pass _ inside enough _
    rw [Pass.bringUp]
    refine ⟨.refl, ?_⟩
    by_contra fresh
    have some : id ∈ pass.unvisited := by simp [Pass.unvisited, inside, fresh]
    have positive := Finset.card_pos.mpr ⟨id, some⟩
    omega
  | succ depth ih =>
    intro turn path id pass closed inside enough sought
    by_cases fresh : id ∈ pass.visited
    · rw [bringUp_of_visited depth fresh]
      exact ⟨.refl, fresh⟩
    cases ready : pass.scheduler.isReady id with
    | true =>
      rw [bringUp_of_ready depth fresh ready]
      exact ⟨.single (.skip fresh inside ready), List.mem_cons_self⟩
    | false =>
      -- Each level looks at a module for the first time, so the depth lasts until all have been looked at.
      have fewer := Pass.card_unvisited_mark inside fresh
      obtain ⟨moves, looked⟩ := ih.all turn (id :: path) (pass.scheduler.dependencies.successors id) (pass.mark id) closed
        (fun needed edge => closed id needed edge) (by omega) (by
          intro needed edge top head
          cases head
          exact edge)
      obtain ⟨tried, same⟩ : ∃ tried, (pass.mark id).bringUpAll ticks depth (pass.scheduler.dependencies.successors id) =
          tried := ⟨_, rfl⟩
      rw [bringUp_of_unready depth fresh ready]
      dsimp only
      rw [same] at moves looked ⊢
      have keeps := moves.keeps
      have graph : tried.scheduler.dependencies = pass.scheduler.dependencies := keeps.dependencies
      rw [← graph] at looked ⊢
      have present : id < tried.scheduler.slots.length := by
        rw [keeps.length]
        exact inside
      have last := exists_move_of_looked ticks turn path present looked
      refine ⟨.head (.enter fresh inside ready sought) (moves.tail last), ?_⟩
      exact last.keeps.visited (keeps.visited List.mem_cons_self)

/-- The step after the turns of the first modules. -/
def after (scheduler : Scheduler σ) (world : σ) (ticks : UInt32) (turns : Nat) : Pass σ :=
  Pass.through ticks scheduler.slots.length (List.range turns) { scheduler, world, visited := [], activity := [] }

/-- The turn of a module, once it has been tried to bring it up. -/
def turnOf (scheduler : Scheduler σ) (world : σ) (ticks : UInt32) (id : ModuleId) : Pass σ :=
  (scheduler.after world ticks id).bringUp ticks scheduler.slots.length id

variable {scheduler : Scheduler σ} {world : σ}

theorem after_succ (scheduler : Scheduler σ) (world : σ) (ticks : UInt32) (turns : Nat) :
    scheduler.after world ticks (turns + 1) = (scheduler.turnOf world ticks turns).pollDue ticks turns := by
  simp only [after, turnOf, Pass.through, List.range_succ, List.foldl_append, List.foldl_cons, List.foldl_nil]

theorem exists_move_of_turn {pass : Pass σ} {turn : ModuleId} (inside : turn < pass.scheduler.slots.length)
    (looked : turn ∈ pass.visited) : Move ticks ⟨turn, [], pass⟩ ⟨turn + 1, [], pass.pollDue ticks turn⟩ := by
  have found := List.getElem?_eq_getElem inside
  rw [Pass.pollDue_of_found ticks found]
  split
  next due => exact .poll found looked due
  next idle => exact .pass found looked (Bool.eq_false_iff.mpr idle)

theorem moves_of_turn (closed : scheduler.Inside) {turns : Nat}
    (before : Moves ticks ⟨0, [], scheduler.after world ticks 0⟩ ⟨turns, [], scheduler.after world ticks turns⟩)
    (inside : turns < scheduler.slots.length) :
    Moves ticks ⟨turns, [], scheduler.after world ticks turns⟩ ⟨turns, [], scheduler.turnOf world ticks turns⟩ ∧
      Move ticks ⟨turns, [], scheduler.turnOf world ticks turns⟩ ⟨turns + 1, [], scheduler.after world ticks (turns + 1)⟩ := by
  have keeps := before.keeps
  have present : turns < (scheduler.after world ticks turns).scheduler.slots.length := by
    rw [keeps.length]
    exact inside
  have enough : (scheduler.after world ticks turns).unvisited.card ≤ scheduler.slots.length := by
    apply (Finset.card_filter_le _ _).trans
    rw [Finset.card_range, keeps.length]
    exact Nat.le_refl _
  obtain ⟨moves, looked⟩ := looksAt ticks scheduler.slots.length turns [] turns (scheduler.after world ticks turns)
    (keeps.inside closed) present enough nofun
  refine ⟨moves, ?_⟩
  rw [after_succ]
  refine exists_move_of_turn ?_ looked
  exact moves.keeps.length ▸ present

theorem moves_after (closed : scheduler.Inside) {turns : Nat} (inside : turns ≤ scheduler.slots.length) :
    Moves ticks ⟨0, [], scheduler.after world ticks 0⟩ ⟨turns, [], scheduler.after world ticks turns⟩ := by
  induction turns with
  | zero => exact .refl
  | succ turns ih =>
    have before := ih (Nat.le_of_lt inside)
    obtain ⟨moves, last⟩ := moves_of_turn closed before inside
    exact (before.trans moves).tail last

theorem moves_between (closed : scheduler.Inside) {first turns : Nat} (ordered : first ≤ turns)
    (inside : turns ≤ scheduler.slots.length) :
    Moves ticks ⟨first, [], scheduler.after world ticks first⟩ ⟨turns, [], scheduler.after world ticks turns⟩ := by
  induction ordered with
  | refl => exact .refl
  | step _ ih =>
    obtain ⟨moves, last⟩ := moves_of_turn closed (moves_after closed (Nat.le_of_lt inside)) inside
    exact ((ih (Nat.le_of_lt inside)).trans moves).tail last

/-- The calls lead from one world to the other, and each is logged with the answer that it got. -/
inductive Plays (units : List (Module σ)) (start : σ) : List Activity → σ → Prop
  | rest : Plays units start [] start
  | up {calls : List Activity} {world : σ} {id : ModuleId} {unit : Module σ} (before : Plays units start calls world)
      (found : units[id]? = some unit) (ready : (unit.init world).2 = true) :
      Plays units start (calls ++ [.init id true]) (Journal.note (.moduleReady unit.name) (unit.init world).1)
  | down {calls : List Activity} {world : σ} {id : ModuleId} {unit : Module σ} (before : Plays units start calls world)
      (found : units[id]? = some unit) (unready : (unit.init world).2 = false) :
      Plays units start (calls ++ [.init id false]) (unit.init world).1
  | poll {calls : List Activity} {world : σ} {id : ModuleId} {unit : Module σ} (before : Plays units start calls world)
      (found : units[id]? = some unit) : Plays units start (calls ++ [.poll id]) (unit.poll world)

theorem Plays.move {units : List (Module σ)} {start : σ} (plays : Plays units start first.pass.activity first.pass.world)
    (same : first.pass.scheduler.units = units) (move : Move ticks first last) :
    Plays units start last.pass.activity last.pass.world := by
  subst same
  cases move with
  | skip | enter | leave | pass => exact plays
  | @init _ _ pass id slot found =>
    have known := units_of_found found
    cases answer : (slot.unit.init pass.world).2 with
    | true =>
      have up := plays.up known answer
      simpa only [Pass.initNow, answer, if_true] using up
    | false =>
      have down := plays.down known answer
      simpa only [Pass.initNow, answer, Bool.false_eq_true, if_false] using down
  | poll found => exact plays.poll (units_of_found found)

/-- Nothing touches the world in a step but the calls that it logs. -/
theorem step_plays (closed : scheduler.Inside) (world : σ) (ticks : UInt32) :
    Plays scheduler.units world (scheduler.step world ticks).activity (scheduler.step world ticks).world := by
  have plays : ∀ {stage : Stage σ}, Moves ticks ⟨0, [], scheduler.after world ticks 0⟩ stage →
      Plays scheduler.units world stage.pass.activity stage.pass.world := by
    intro stage moves
    induction moves with
    | refl => exact .rest
    | tail before move ih => exact ih.move (Moves.keeps before).units move
  exact plays (moves_after closed (Nat.le_refl _))

end Hopline.Scheduler

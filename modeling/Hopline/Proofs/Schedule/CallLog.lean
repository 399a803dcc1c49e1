import Hopline.Proofs.Schedule.Dependencies

/-! The log of the calls that a scheduler makes, what it is for such a log to be in order, and that what the
scheduler keeps for each module is what the log tells of it. -/

namespace Hopline.Schedule

/-- What a module is called for. -/
inductive Duty
  | init (id : ModuleId)
  | poll (id : ModuleId)
deriving DecidableEq

def Duty.owner : Duty → ModuleId
  | .init id => id
  | .poll id => id

def Activity.duty : Activity → Duty
  | .init id _ => .init id
  | .poll id => .poll id

end Hopline.Schedule

namespace Hopline.Scheduler

open Schedule Relation

def Entry.duty (entry : Entry) : Duty := entry.activity.duty

def latest (log : List Entry) (duty : Duty) : Option Entry := log.reverse.find? fun entry => entry.duty = duty

def Reports (log : List Entry) (id : ModuleId) : Prop := ∃ entry ∈ log, entry.activity = .init id true

/-- A call is in order after the calls before it. -/
structure Admissible (period : ModuleId → UInt32) (earlier : List Entry) (entry : Entry) : Prop where
  ready : ∀ id, entry.activity = .poll id → Reports earlier id
  unready : ∀ id answer, entry.activity = .init id answer → ¬ Reports earlier id
  needed : ∀ id answer, entry.activity = .init id answer →
    ∀ needed ∈ entry.dependencies.successors id, Reports earlier needed
  once : ∀ other ∈ earlier, other.step = entry.step → other.duty ≠ entry.duty
  spaced : ∀ last, latest earlier entry.duty = some last → period entry.duty.owner ≤ entry.ticks - last.ticks

def Disciplined (period : ModuleId → UInt32) (log : List Entry) : Prop :=
  ∀ earlier entry later, log = earlier ++ entry :: later → Admissible period earlier entry

section Log

variable {period other : ModuleId → UInt32} {log : List Entry} {entry : Entry} {id : ModuleId} {duty : Duty}

theorem latest_concat (log : List Entry) (entry : Entry) (duty : Duty) :
    latest (log ++ [entry]) duty = if entry.duty = duty then some entry else latest log duty := by
  simp only [latest, List.reverse_append, List.reverse_singleton, List.singleton_append, List.find?_cons]
  split
  next same => rw [if_pos (of_decide_eq_true same)]
  next apart => rw [if_neg (of_decide_eq_false apart)]

theorem latest_eq_none (absent : ∀ entry ∈ log, entry.duty ≠ duty) : latest log duty = none := by
  simp only [latest, List.find?_eq_none, List.mem_reverse]
  intro entry member same
  exact absent entry member (of_decide_eq_true same)

theorem latest_append (earlier : List Entry) (absent : ∀ entry ∈ log, entry.duty ≠ duty) :
    latest (earlier ++ log) duty = latest earlier duty := by
  have none := latest_eq_none absent
  unfold latest at none ⊢
  rw [List.reverse_append, List.find?_append, none, Option.none_or]

theorem reports_concat : Reports (log ++ [entry]) id ↔ Reports log id ∨ entry.activity = .init id true := by
  simp [Reports, or_and_right, exists_or]

theorem Disciplined.concat (disciplined : Disciplined period log) (admissible : Admissible period log entry) :
    Disciplined period (log ++ [entry]) := by
  intro earlier middle later split
  rcases List.eq_nil_or_concat later with rfl | ⟨later, last, rfl⟩
  · obtain ⟨rfl, same⟩ := List.append_inj' split rfl
    cases same
    exact admissible
  · rw [List.concat_eq_append, ← List.cons_append, ← List.append_assoc] at split
    obtain ⟨same, -⟩ := List.append_inj' split rfl
    exact disciplined earlier middle later same

theorem Disciplined.congr (disciplined : Disciplined period log)
    (same : ∀ entry ∈ log, other entry.duty.owner = period entry.duty.owner) : Disciplined other log := by
  intro earlier entry later split
  have admissible := disciplined earlier entry later split
  refine ⟨admissible.ready, admissible.unready, admissible.needed, admissible.once, ?_⟩
  rw [same entry (by simp [split])]
  exact admissible.spaced

end Log

variable {σ : Type}

/-- What is kept of each module is what the log tells of it. -/
structure Remembers (scheduler : Scheduler σ) (log : List Entry) : Prop where
  ready : ∀ id, scheduler.isReady id = true ↔ Reports log id
  lastInit : ∀ id slot, scheduler.slots[id]? = some slot → slot.lastInit = (latest log (.init id)).map Entry.ticks
  lastPoll : ∀ id slot, scheduler.slots[id]? = some slot → slot.lastPoll = (latest log (.poll id)).map Entry.ticks
  known : ∀ entry ∈ log, entry.duty.owner < scheduler.slots.length

section Remembers

variable {scheduler : Scheduler σ} {log : List Entry} {id : ModuleId} {slot : Slot σ}

theorem length_put (scheduler : Scheduler σ) (id : ModuleId) (slot : Slot σ) :
    (scheduler.put id slot).slots.length = scheduler.slots.length := List.length_set

theorem Remembers.init (remembers : scheduler.Remembers log) (found : scheduler.slots[id]? = some slot)
    (unready : slot.ready = false) {answer : Bool} (entry : Entry) (called : entry.activity = .init id answer) :
    (scheduler.put id { slot with ready := answer, lastInit := some entry.ticks }).Remembers (log ++ [entry]) := by
  have duty : entry.duty = .init id := by rw [Entry.duty, called, Activity.duty]
  have silent : ¬ Reports log id := by
    rw [← remembers.ready, isReady_of_found found, unready]
    nofun
  constructor
  · intro other
    rw [isReady_put found, reports_concat, called]
    split
    next same =>
      subst same
      simp [silent]
    next apart => simp [remembers.ready, Ne.symm apart]
  · intro other slot' found'
    rw [slots_put found] at found'
    rw [latest_concat, duty]
    split at found'
    next same =>
      cases found'
      simp [same]
    next apart =>
      rw [if_neg (by simp [Ne.symm apart])]
      exact remembers.lastInit other slot' found'
  · intro other slot' found'
    rw [slots_put found] at found'
    rw [latest_concat, duty, if_neg nofun]
    split at found'
    next same =>
      cases found'
      rw [same]
      exact remembers.lastPoll id slot found
    next => exact remembers.lastPoll other slot' found'
  · intro other member
    rw [length_put]
    rcases List.mem_append.mp member with old | new
    · exact remembers.known other old
    · rw [List.mem_singleton.mp new, duty]
      exact lt_of_found found

theorem Remembers.poll (remembers : scheduler.Remembers log) (found : scheduler.slots[id]? = some slot) (entry : Entry)
    (called : entry.activity = .poll id) :
    (scheduler.put id { slot with lastPoll := some entry.ticks }).Remembers (log ++ [entry]) := by
  have duty : entry.duty = .poll id := by rw [Entry.duty, called, Activity.duty]
  constructor
  · intro other
    rw [isReady_put found, reports_concat, called]
    split
    next same => simp [same, ← remembers.ready, isReady_of_found found]
    next => simp [remembers.ready]
  · intro other slot' found'
    rw [slots_put found] at found'
    rw [latest_concat, duty, if_neg nofun]
    split at found'
    next same =>
      cases found'
      rw [same]
      exact remembers.lastInit id slot found
    next => exact remembers.lastInit other slot' found'
  · intro other slot' found'
    rw [slots_put found] at found'
    rw [latest_concat, duty]
    split at found'
    next same =>
      cases found'
      simp [same]
    next apart =>
      rw [if_neg (by simp [Ne.symm apart])]
      exact remembers.lastPoll other slot' found'
  · intro other member
    rw [length_put]
    rcases List.mem_append.mp member with old | new
    · exact remembers.known other old
    · rw [List.mem_singleton.mp new, duty]
      exact lt_of_found found

theorem Remembers.latest_of_outside (remembers : scheduler.Remembers log) {duty : Duty}
    (outside : scheduler.slots.length ≤ duty.owner) : latest log duty = none := by
  apply latest_eq_none
  rintro entry member rfl
  exact absurd (remembers.known entry member) (Nat.not_lt.mpr outside)

theorem Remembers.add {after : Scheduler σ} (remembers : scheduler.Remembers log) {unit : Module σ}
    (slots : after.slots = scheduler.slots ++ [{ unit, ready := false, lastInit := none, lastPoll := none }]) :
    after.Remembers log := by
  have old_or_new : ∀ {id slot}, after.slots[id]? = some slot → scheduler.slots[id]? = some slot ∨
      scheduler.slots.length ≤ id ∧ slot = { unit, ready := false, lastInit := none, lastPoll := none } := by
    intro id slot found
    rw [slots, List.getElem?_append] at found
    split at found
    next => exact .inl found
    next outside => exact .inr ⟨Nat.le_of_not_lt outside, (List.mem_singleton.mp (List.mem_of_getElem? found))⟩
  constructor
  · intro id
    rw [← remembers.ready]
    unfold isReady
    rw [slots, List.getElem?_append]
    split
    next => rfl
    next outside =>
      rw [List.getElem?_eq_none (Nat.le_of_not_lt outside), List.getElem?_singleton]
      split <;> simp
  · intro id slot found
    rcases old_or_new found with old | ⟨outside, rfl⟩
    · exact remembers.lastInit id slot old
    · have silent : latest log (.init id) = none := remembers.latest_of_outside outside
      rw [silent]
      rfl
  · intro id slot found
    rcases old_or_new found with old | ⟨outside, rfl⟩
    · exact remembers.lastPoll id slot old
    · have silent : latest log (.poll id) = none := remembers.latest_of_outside outside
      rw [silent]
      rfl
  · intro entry member
    rw [slots, List.length_append]
    exact Nat.lt_add_right _ (remembers.known entry member)

theorem Remembers.of_slots {after : Scheduler σ} (remembers : scheduler.Remembers log) (slots : after.slots = scheduler.slots) :
    after.Remembers log := by
  have isReady : after.isReady = scheduler.isReady := by
    unfold Scheduler.isReady
    rw [slots]
  refine ⟨?_, ?_, ?_, ?_⟩
  · rw [isReady]
    exact remembers.ready
  · rw [slots]
    exact remembers.lastInit
  · rw [slots]
    exact remembers.lastPoll
  · rw [slots]
    exact remembers.known

end Remembers

end Hopline.Scheduler

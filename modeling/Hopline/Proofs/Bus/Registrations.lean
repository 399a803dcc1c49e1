import Hopline.Bus.Registry
import Mathlib.Data.List.Induction

/-! The registry of a bus as a view of the log of all registrations. It forgets the registrations of dropped handlers
only when the next one is made, and no question that it answers shows when that was. -/

namespace Hopline.Registry

section Repeated

variable {first second address : Address} {rest sorted : List Address}

theorem repeated_cons_cons : repeated (first :: second :: rest) =
    if first = second then first :: repeated (second :: rest) else repeated (second :: rest) := by
  simp only [repeated, List.tail_cons, List.zip_cons_cons, List.filter_cons, beq_iff_eq]
  split <;> rfl

theorem repeated_sublist (sorted : List Address) : (repeated sorted).Sublist sorted := by
  induction sorted with
  | nil => exact List.Sublist.refl _
  | cons first rest ih =>
    cases rest with
    | nil => exact List.nil_sublist _
    | cons second rest =>
      rw [repeated_cons_cons]
      split
      next => exact ih.cons_cons first
      next => exact ih.cons first

/-- Once sorted, an address stands next to an equal one if and only if there are two of it. -/
theorem mem_repeated (ascending : sorted.Pairwise (· ≤ ·)) : address ∈ repeated sorted ↔ 2 ≤ sorted.count address := by
  induction sorted with
  | nil => simp [repeated]
  | cons first rest ih =>
    cases rest with
    | nil =>
      have few : [first].count address ≤ 1 := List.count_le_length
      simp only [repeated, List.tail_cons, List.zip_nil_right, List.filter_nil, List.map_nil, List.not_mem_nil, false_iff]
      omega
    | cons second rest =>
      obtain ⟨least, ascending⟩ := List.pairwise_cons.mp ascending
      replace ih := ih ascending
      rw [repeated_cons_cons, List.count_cons]
      by_cases same : first = second
      · subst same
        have once : 0 < (first :: rest).count first := List.count_pos_iff.mpr List.mem_cons_self
        rw [if_pos rfl, List.mem_cons, ih]
        by_cases here : address = first
        · subst here
          simp only [true_or, beq_self_eq_true, if_true, true_iff]
          omega
        · simp [here, Ne.symm here]
      · rw [if_neg same, ih]
        by_cases here : first = address
        · subst here
          have apart : first ∉ second :: rest := by
            intro member
            have below := (List.pairwise_cons.mp ascending).1
            rcases List.mem_cons.mp member with equal | later
            · exact same equal
            · exact same (UInt16.le_antisymm (least second List.mem_cons_self) (below first later))
          rw [List.count_eq_zero_of_not_mem apart]
          simp
        · simp [here]

theorem mem_dedupNeighbours : address ∈ dedupNeighbours sorted ↔ address ∈ sorted := by
  fun_induction dedupNeighbours sorted with
  | case1 => exact Iff.rfl
  | case2 => exact Iff.rfl
  | case3 first rest ih => rw [ih]; simp
  | case4 first second rest _ ih =>
    rw [List.mem_cons, ih]
    exact List.mem_cons.symm

theorem pairwise_dedupNeighbours (ascending : sorted.Pairwise (· ≤ ·)) : (dedupNeighbours sorted).Pairwise (· < ·) := by
  fun_induction dedupNeighbours sorted with
  | case1 => exact List.Pairwise.nil
  | case2 => exact List.pairwise_singleton _ _
  | case3 first rest ih => exact ih (List.pairwise_cons.mp ascending).2
  | case4 first second rest apart ih =>
    obtain ⟨least, ascending⟩ := List.pairwise_cons.mp ascending
    refine List.pairwise_cons.mpr ⟨?_, ih ascending⟩
    intro other member
    have below := UInt16.lt_of_le_of_ne (least second List.mem_cons_self) apart
    rcases List.mem_cons.mp (mem_dedupNeighbours.mp member) with rfl | later
    · exact below
    · exact UInt16.lt_of_lt_of_le below ((List.pairwise_cons.mp ascending).1 other later)

end Repeated

inductive Change
  | register (address : Address) (handler : HandlerId)
  | drop (handler : HandlerId)
deriving DecidableEq

def Change.registration? : Change → Option Registration
  | .register address handler => some ⟨address, handler⟩
  | .drop _ => none

/-- A registry in use, with the handlers that have been dropped. -/
structure History where
  registry : Registry
  dropped : List HandlerId

namespace History

def start : History := { registry := empty, dropped := [] }

def alive (history : History) (handler : HandlerId) : Bool := !history.dropped.contains handler

def after (history : History) : Change → History
  | .register address handler =>
    { history with registry := (history.registry.register history.alive address handler).1 }
  | .drop handler => { history with dropped := handler :: history.dropped }

end History

/-- What a registry answers is what the log of all registrations tells. -/
structure Mirrors (registry : Registry) (alive : HandlerId → Bool) (log : List Registration) : Prop where
  resolved : ∀ address handler, registry.resolve alive address = some handler ↔
    alive handler = true ∧ ∃ earlier later, log = earlier ++ ⟨address, handler⟩ :: later ∧
      ∀ entry ∈ earlier, entry.address = address → alive entry.handler = false
  unresolved : ∀ address, registry.resolve alive address = none ↔
    ∀ entry ∈ log, entry.address = address → alive entry.handler = false
  addresses : registry.addresses alive = (log.filter fun entry => alive entry.handler).map Registration.address
  length : registry.length alive = (log.filter fun entry => alive entry.handler).length
  ascending : (registry.duplicates alive).Pairwise (· < ·)
  duplicates : ∀ address, address ∈ registry.duplicates alive ↔
    2 ≤ ((log.filter fun entry => alive entry.handler).map Registration.address).count address

/-- No answer of either registry tells them apart. -/
structure Alike (registry other : Registry) (alive : HandlerId → Bool) : Prop where
  resolve : registry.resolve alive = other.resolve alive
  addresses : registry.addresses alive = other.addresses alive
  length : registry.length alive = other.length alive
  duplicates : registry.duplicates alive = other.duplicates alive

variable {registry other : Registry} {alive : HandlerId → Bool} {address : Address} {handler : HandlerId}

theorem resolve_eq_find? (registry : Registry) (alive : HandlerId → Bool) (address : Address) :
    registry.resolve alive address =
      ((registry.live alive).find? fun entry => entry.address == address).map Registration.handler := by
  unfold resolve live
  rw [List.find?_filter]
  congr 2
  funext entry
  rw [Bool.and_comm, Bool.decide_and, Bool.decide_eq_true, Bool.decide_eq_true]

theorem alike_of_live (same : registry.live alive = other.live alive) : Alike registry other alive := by
  have addresses : registry.addresses alive = other.addresses alive := by rw [Registry.addresses, same, Registry.addresses]
  refine ⟨?_, addresses, ?_, ?_⟩
  · funext address
    rw [resolve_eq_find?, same, ← resolve_eq_find?]
  · rw [Registry.length, addresses, Registry.length]
  · rw [Registry.duplicates, addresses, Registry.duplicates]

theorem pairwise_sorted (addresses : List Address) : (addresses.mergeSort fun a b => a ≤ b).Pairwise (· ≤ ·) := by
  have ordered : (addresses.mergeSort fun a b => a ≤ b).Pairwise fun a b => decide (a ≤ b) = true := by
    apply List.pairwise_mergeSort
    · intro a b c first second
      exact decide_eq_true (UInt16.le_trans (of_decide_eq_true first) (of_decide_eq_true second))
    · intro a b
      rw [Bool.or_eq_true, decide_eq_true_eq, decide_eq_true_eq]
      exact UInt16.le_total a b
  exact ordered.imp of_decide_eq_true

theorem mem_duplicates : address ∈ registry.duplicates alive ↔ 2 ≤ (registry.addresses alive).count address := by
  unfold Registry.duplicates
  rw [mem_dedupNeighbours, mem_repeated (pairwise_sorted _), (List.mergeSort_perm _ _).count_eq]

theorem pairwise_duplicates (registry : Registry) (alive : HandlerId → Bool) :
    (registry.duplicates alive).Pairwise (· < ·) :=
  pairwise_dedupNeighbours ((pairwise_sorted _).sublist (repeated_sublist _))

theorem resolve_eq_some_iff : registry.resolve alive address = some handler ↔
    alive handler = true ∧ ∃ earlier later, registry.entries = earlier ++ ⟨address, handler⟩ :: later ∧
      ∀ entry ∈ earlier, entry.address = address → alive entry.handler = false := by
  unfold resolve
  rw [Option.map_eq_some_iff]
  constructor
  · rintro ⟨⟨_, _⟩, found, rfl⟩
    obtain ⟨chosen, earlier, later, split, passed⟩ := List.find?_eq_some_iff_append.mp found
    obtain ⟨here, lives⟩ := Bool.and_eq_true_iff.mp chosen
    obtain rfl := beq_iff_eq.mp here
    refine ⟨lives, earlier, later, split, ?_⟩
    intro entry member same
    have skipped := passed entry member
    simpa [same] using skipped
  · rintro ⟨lives, earlier, later, split, dead⟩
    refine ⟨⟨address, handler⟩, List.find?_eq_some_iff_append.mpr ⟨?_, earlier, later, split, ?_⟩, rfl⟩
    · rw [beq_self_eq_true, lives]
      rfl
    · intro entry member
      by_cases same : entry.address = address
      · simp [dead entry member same]
      · simp [same]

theorem resolve_eq_none_iff : registry.resolve alive address = none ↔
    ∀ entry ∈ registry.entries, entry.address = address → alive entry.handler = false := by
  simp [resolve]

/-- A registry that has never forgotten anything. -/
theorem mirrors_unpruned (alive : HandlerId → Bool) (log : List Registration) : Mirrors ⟨log⟩ alive log :=
  ⟨fun _ _ => resolve_eq_some_iff, fun _ => resolve_eq_none_iff, rfl, List.length_map _, pairwise_duplicates _ _,
    fun _ => mem_duplicates⟩

theorem Alike.mirrors {log : List Registration} (alike : Alike registry other alive) (mirrors : other.Mirrors alive log) :
    registry.Mirrors alive log := by
  constructor
  · rw [alike.resolve]
    exact mirrors.resolved
  · rw [alike.resolve]
    exact mirrors.unresolved
  · rw [alike.addresses]
    exact mirrors.addresses
  · rw [alike.length]
    exact mirrors.length
  · rw [alike.duplicates]
    exact mirrors.ascending
  · rw [alike.duplicates]
    exact mirrors.duplicates

theorem live_register (registry : Registry) (alive : HandlerId → Bool) (address : Address) (handler : HandlerId) :
    (registry.register alive address handler).1.live alive = live ⟨registry.entries ++ [⟨address, handler⟩]⟩ alive := by
  simp only [register, live, List.filter_append, List.filter_filter, Bool.and_self]

theorem live_of_fewer {fewer : HandlerId → Bool} (within : ∀ handler, fewer handler = true → alive handler = true) :
    registry.live fewer = (registry.live alive).filter fun entry => fewer entry.handler := by
  unfold live
  rw [List.filter_filter]
  apply List.filter_congr
  intro entry _
  cases lives : fewer entry.handler with
  | false => rfl
  | true => rw [within _ lives, Bool.true_and]

/-- The live registrations are those of the log. -/
theorem History.live_run (changes : List Change) :
    let history := changes.foldl after start
    history.registry.live history.alive = live ⟨changes.filterMap Change.registration?⟩ history.alive := by
  induction changes using List.reverseRecOn with
  | nil => rfl
  | append_singleton changes change ih =>
    simp only [List.foldl_append, List.foldl_cons, List.foldl_nil, List.filterMap_append] at ih ⊢
    generalize changes.foldl after start = history at ih ⊢
    cases change with
    | register address handler =>
      have kept := live_register history.registry history.alive address handler
      unfold live at ih kept ⊢
      rw [List.filter_append] at kept ⊢
      exact kept.trans (congrArg (· ++ _) ih)
    | drop handler =>
      have fewer : ∀ other, (history.after (.drop handler)).alive other = true → history.alive other = true := by
        intro other lives
        simp only [after, alive, List.contains_cons, Bool.not_or, Bool.and_eq_true] at lives
        exact lives.2
      -- What the registry has forgotten was dead already, so both lists lose the same entries now.
      have none : [Change.drop handler].filterMap Change.registration? = [] := rfl
      rw [none, List.append_nil, live_of_fewer fewer, live_of_fewer fewer, ← ih]
      rfl

/-- After any registrations and drops a registry answers by the log alone, as if it had never forgotten anything. -/
theorem registry_mirrors_log (changes : List Change) :
    let history := changes.foldl History.after .start
    let log := changes.filterMap Change.registration?
    history.registry.Mirrors history.alive log ∧ Alike history.registry ⟨log⟩ history.alive := by
  intro history log
  have alike : Alike history.registry ⟨log⟩ history.alive := alike_of_live (History.live_run changes)
  exact ⟨alike.mirrors (mirrors_unpruned history.alive log), alike⟩

end Hopline.Registry

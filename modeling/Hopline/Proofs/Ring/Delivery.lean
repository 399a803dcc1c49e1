import Hopline.Proofs.Ring.Ledger

/-! Every message in a ring meets the fate that it would meet alone, whatever else is sent and in
whichever order the bytes move. -/

namespace Hopline

/-- A ring of fresh buses. -/
def Placement.ring {n : Nat} (placement : Placement n) : Ring n :=
  .ofBuses (.ofFn fun device => { Bus.ofConfig .standard with registry := placement device })

namespace Ring

variable {n : Nat}

inductive Action (n : Nat)
  /-- A device sends a message. -/
  | signal (journey : Journey n)
  /-- The oldest byte of a link moves on, if there is one. -/
  | transfer (sender : Fin n)

def Action.journey? : Action n → Option (Journey n)
  | .signal journey => some journey
  | .transfer _ => none

def act (ring : Ring n) : Action n → Ring n
  | .signal journey => (ring.signal journey.start journey.frame.toMessage).1
  | .transfer sender => ring.transfer sender

def run (ring : Ring n) (actions : List (Action n)) : Ring n := actions.foldl act ring

/-- The bytes that the line of a device takes during an action. -/
def takes (ring : Ring n) (device : Fin n) : Action n → Bytes
  | .signal journey =>
    if journey.start = device then
      ((ring.bus device).signalQuietly everyone journey.frame.toMessage).carried
    else []
  | .transfer sender =>
    match ring.link sender with
    | [] => []
    | byte :: _ => if next sender = device then ((ring.bus device).ingestQuietly everyone byte).carried else []

/-- The bytes that the line of a device takes during a run. -/
def sentBy (ring : Ring n) (device : Fin n) : List (Action n) → Bytes
  | [] => []
  | action :: rest => ring.takes device action ++ (ring.act action).sentBy device rest

variable {placement : Placement n} {journeys : List (Journey n)} {taken : Fin n → Bytes} {ring : Ring n}
  {underway : Fin n → List Frame} {log : List (Happening n)}

theorem ledger_ring (placement : Placement n) :
    Ledger placement [] (fun _ => []) [] placement.ring (fun _ => []) [] := by
  have bus (device : Fin n) :
      placement.ring.bus device = { Bus.ofConfig .standard with registry := placement device } :=
    Vector.getElem_ofFn _
  have link (device : Fin n) : placement.ring.link device = [] := Vector.getElem_replicate _
  constructor
  case ready =>
    intro device
    rw [bus]
    exact ⟨rfl, rfl⟩
  case registry =>
    intro device
    rw [bus]
  case plain =>
    intro device
    rw [bus]
    exact ⟨rfl, rfl⟩
  case links =>
    intro device
    rw [bus, link]
    exact ⟨rfl, .inl rfl, fun frame member => nomatch member⟩
  case deliveries => rfl
  case taken => exact fun device => rfl
  case moved =>
    simp only [link, List.length_nil, Finset.sum_const_zero]
    rfl
  case balance =>
    simp only [Placement.pending, List.flatMap_nil, List.append_nil, Multiset.coe_nil, Finset.sum_const_zero, add_zero]

theorem append_if (taken : Fin n → Bytes) (place : Fin n) (bytes : Fin n → Bytes) :
    (fun device => taken device ++ if place = device then bytes device else []) =
      Function.update taken place (taken place ++ bytes place) := by
  funext device
  by_cases same : place = device
  · subst same
    rw [if_pos rfl, Function.update_self]
  · rw [if_neg same, Function.update_of_ne (Ne.symm same), List.append_nil]

theorem Ledger.signal (ledger : Ledger placement journeys taken [] ring underway log) (journey : Journey n) :
    ∃ (underway : Fin n → List Frame) (log : List (Happening n)),
      Ledger placement (journeys ++ [journey]) (fun device => taken device ++ ring.takes device (.signal journey)) []
        (ring.act (.signal journey)) underway log := by
  have entered : Ledger placement (journeys ++ [journey]) taken (journey.itinerary placement) ring underway log := by
    refine { ledger with balance := ?_ }
    have balance := ledger.balance
    rw [List.append_nil] at balance
    rw [List.flatMap_append, List.flatMap_singleton, ← Multiset.coe_add, ← Multiset.coe_add, ← balance, add_right_comm]
  let sent (device : Fin n) := (ring.bus device).signalQuietly everyone journey.frame.toMessage
  have leaves := @Bus.leaves_signal _ _ everyone (ledger.ready journey.start) journey.fresh
  rw [ledger.registry] at leaves
  rw [journey.itinerary_eq_outcome] at entered
  have done := entered.absorb (Registry.fresh_of_dispose _ .sent journey.fresh) leaves
  rw [← append_if taken journey.start fun device => (sent device).carried] at done
  exact ⟨_, _, done⟩

theorem Ledger.transfer (ledger : Ledger placement journeys taken [] ring underway log) (sender : Fin n) :
    ∃ (underway : Fin n → List Frame) (log : List (Happening n)),
      Ledger placement journeys (fun device => taken device ++ ring.takes device (.transfer sender)) []
        (ring.act (.transfer sender)) underway log := by
  cases waiting : ring.link sender with
  | nil =>
    have still : ring.transfer sender = ring := by
      unfold Ring.transfer
      rw [waiting]
    have nothing (device : Fin n) : ring.takes device (.transfer sender) = [] := by
      simp only [takes, waiting]
    simp only [nothing, List.append_nil, act, still]
    exact ⟨_, _, ledger⟩
  | cons byte rest =>
    have between := ledger.links sender
    rw [waiting] at between
    obtain ⟨plain, progress⟩ := between.hear (ledger.plain (next sender))
    have took : (fun device => taken device ++ ring.takes device (.transfer sender)) =
        Function.update taken (next sender)
          (taken (next sender) ++ ((ring.bus (next sender)).ingestQuietly everyone byte).carried) := by
      rw [← append_if taken (next sender) fun device => ((ring.bus device).ingestQuietly everyone byte).carried]
      simp only [takes, waiting]
    have ready := ledger.ready (next sender)
    have window : ((ring.overhear sender byte rest).bus (next sender)).window =
        ((ring.bus (next sender)).window.ingest byte).window := by
      rw [bus_overhear, Function.update_self]
    rw [took, act, ring.transfer_eq_absorb waiting]
    rcases progress with ⟨nothing, between⟩ | ⟨frame, later, front, whole, fresh, between⟩
    · have leaves := (@Bus.settles_ingest_inside _ everyone ready byte nothing).toLeaves
      rw [ledger.registry, ← window] at leaves
      have heard : Ledger placement journeys taken (placement.outcome (next sender) .dropped) _ _ log :=
        ledger.hear waiting plain between (add_zero _).symm
      exact ⟨_, _, heard.absorb (fun frame member => nomatch member) leaves⟩
    · have leaves := (@Bus.settles_ingest_last _ frame everyone ready byte whole).toLeaves
      rw [Registry.relay_of_fresh fresh, ledger.registry, ← window] at leaves
      have owed : Multiset.ofList ((underway sender).flatMap (placement.upcoming (next sender))) =
          Multiset.ofList (later.flatMap (placement.upcoming (next sender))) +
            Multiset.ofList (placement.upcoming (next sender) frame) := by
        rw [front, List.flatMap_cons, ← Multiset.coe_add, add_comm]
      have heard := ledger.hear waiting plain between owed
      rw [placement.upcoming_of_fresh (next sender) fresh] at heard
      exact ⟨_, _, heard.absorb (Registry.fresh_of_dispose _ .received fresh) leaves⟩

theorem ledger_run (ledger : Ledger placement journeys taken [] ring underway log) (actions : List (Action n)) :
    ∃ (underway : Fin n → List Frame) (log : List (Happening n)),
      Ledger placement (journeys ++ actions.filterMap Action.journey?)
        (fun device => taken device ++ ring.sentBy device actions) [] (ring.run actions) underway log := by
  -- on the actions, from any ring whose ledger is in order: each action leaves such a ring
  induction actions generalizing journeys taken ring underway log with
  | nil =>
    simp only [List.filterMap_nil, List.append_nil, sentBy]
    exact ⟨_, _, ledger⟩
  | cons action rest ih =>
    cases action with
    | signal journey =>
      obtain ⟨_, _, stepped⟩ := ledger.signal journey
      have later := ih stepped
      simp only [List.append_assoc] at later
      exact later
    | transfer sender =>
      obtain ⟨_, _, stepped⟩ := ledger.transfer sender
      have later := ih stepped
      simp only [List.append_assoc] at later
      exact later

theorem size_handover (placement : Placement n) (journey : Journey n) :
    ∀ happening ∈ (journey.handover placement).toList, happening.size = 0 := by
  intro happening member
  have found := Option.mem_toList.mp member
  unfold Journey.handover at found
  split at found
  next => cases found
  next =>
    split at found
    next =>
      cases found
      rfl
    next =>
      split at found
      next =>
        cases found
        rfl
      next => cases found

theorem transmissions_le (placement : Placement n) (journey : Journey n) :
    journey.transmissions placement ≤ journey.frame.ttl.toNat := by
  unfold Journey.transmissions
  split
  next => exact Nat.min_le_right _ _
  next => exact Nat.le_refl _

theorem sum_size_itinerary (placement : Placement n) (journey : Journey n) :
    ((journey.itinerary placement).map Happening.size).sum ≤ journey.cost := by
  have handover : ((journey.handover placement).toList.map Happening.size).sum = 0 := by
    apply List.sum_eq_zero
    intro size member
    obtain ⟨happening, inside, rfl⟩ := List.mem_map.mp member
    exact size_handover placement journey happening inside
  have transmissions : ((List.range (journey.transmissions placement)).map
      (Happening.size ∘ fun hops => .sent (ahead journey.start hops)
        (journey.frame.withTtl (UInt8.ofNat (journey.frame.ttl.toNat - hops))))).sum =
      journey.transmissions placement * journey.frame.wireSize := by
    have same : (Happening.size ∘ fun hops => .sent (ahead journey.start hops)
        (journey.frame.withTtl (UInt8.ofNat (journey.frame.ttl.toNat - hops)))) =
        fun _ => journey.frame.wireSize := rfl
    rw [same, List.map_const', List.length_range, List.sum_replicate, smul_eq_mul]
  rw [journey.itinerary_eq_fate, Journey.fate, List.map_append, List.map_map, List.sum_append, transmissions, handover,
    Nat.add_zero]
  exact Nat.mul_le_mul_right _ (transmissions_le placement journey)

theorem Ledger.moved_le (ledger : Ledger placement journeys taken [] ring underway log) :
    ring.moved ≤ (journeys.map Journey.cost).sum := by
  let total (happenings : Multiset (Happening n)) := (happenings.map Happening.size).sum
  have balance := congrArg total ledger.balance
  simp only [total, List.append_nil, Multiset.map_add, Multiset.sum_add, Multiset.map_coe, Multiset.sum_coe] at balance
  have logged : (log.map Happening.size).sum ≤
      ((journeys.flatMap (Journey.itinerary placement)).map Happening.size).sum :=
    balance ▸ Nat.le_add_right _ _
  have bounded : ((journeys.flatMap (Journey.itinerary placement)).map Happening.size).sum ≤
      (journeys.map Journey.cost).sum := by
    rw [List.map_flatMap, List.flatMap_def, List.sum_flatten, List.map_map]
    apply List.sum_le_sum
    intro journey _
    exact sum_size_itinerary placement journey
  calc ring.moved ≤ (log.map Happening.size).sum := ledger.moved ▸ Nat.le_add_right _ _
    _ ≤ ((journeys.flatMap (Journey.itinerary placement)).map Happening.size).sum := logged
    _ ≤ (journeys.map Journey.cost).sum := bounded

theorem moved_transfer {sender : Fin n} {byte : UInt8} {rest : Bytes} (waiting : ring.link sender = byte :: rest) :
    (ring.transfer sender).moved = ring.moved + 1 := by
  rw [ring.transfer_eq_absorb waiting]
  rfl

theorem Ledger.exists_settling {taken : Fin n → Bytes} {ring : Ring n} {underway : Fin n → List Frame}
    {log : List (Happening n)} (ledger : Ledger placement journeys taken [] ring underway log) :
    ∃ senders : List (Fin n), ∀ device, (ring.run (senders.map .transfer)).link device = [] := by
  by_cases settled : ∀ device, ring.link device = []
  · exact ⟨[], settled⟩
  · obtain ⟨sender, busy⟩ := not_forall.mp settled
    obtain ⟨byte, rest, waiting⟩ := List.exists_cons_of_ne_nil busy
    obtain ⟨_, _, stepped⟩ := ledger.transfer sender
    have bound := stepped.moved_le
    have more : (ring.act (.transfer sender)).moved = ring.moved + 1 := moved_transfer waiting
    obtain ⟨senders, settled⟩ := stepped.exists_settling
    exact ⟨sender :: senders, settled⟩
termination_by (journeys.map Journey.cost).sum - ring.moved
decreasing_by omega

/-- Whatever was sent, the bytes can be moved until none is left. -/
theorem exists_settled (placement : Placement n) (actions : List (Action n)) :
    ∃ senders : List (Fin n), ∀ device,
      (placement.ring.run (actions ++ senders.map .transfer)).link device = [] := by
  obtain ⟨_, _, ledger⟩ := ledger_run (ledger_ring placement) actions
  obtain ⟨senders, settled⟩ := ledger.exists_settling
  refine ⟨senders, ?_⟩
  rw [run, List.foldl_append]
  exact settled

/-- Each message meets its own fate, down to the handler that gets it, and the bytes that move are bounded before they
do. -/
theorem delivery_law (placement : Placement n) (actions : List (Action n)) :
    let ring := placement.ring.run actions
    let journeys := actions.filterMap Action.journey?
    ring.moved ≤ (journeys.map Journey.cost).sum ∧
      ((∀ device, ring.link device = []) →
        ∃ log : List (Happening n), log.Perm (journeys.flatMap (Journey.fate placement)) ∧
          ring.deliveries = log.filterMap Happening.delivery? ∧
          ∀ device, placement.ring.sentBy device actions =
            Frame.wires .checksum (log.filterMap (Happening.sending? device))) := by
  intro ring journeys
  obtain ⟨underway, log, ledger⟩ := ledger_run (ledger_ring placement) actions
  refine ⟨ledger.moved_le, ?_⟩
  intro still
  have arrived (device : Fin n) : underway device = [] := by
    have between := ledger.links device
    rw [still] at between
    exact between.eq_nil
  have nothing : placement.pending underway = 0 := by
    simp only [Placement.pending, arrived, List.flatMap_nil, Multiset.coe_nil, Finset.sum_const_zero]
  have balance := ledger.balance
  rw [nothing, add_zero, List.append_nil, Multiset.coe_eq_coe] at balance
  refine ⟨log, ?_, ledger.deliveries, ledger.taken⟩
  have fates : Journey.itinerary placement = Journey.fate placement := funext (Journey.itinerary_eq_fate placement)
  rw [← fates]
  exact balance

end Ring

end Hopline

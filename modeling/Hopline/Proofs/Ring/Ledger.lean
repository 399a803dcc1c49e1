import Mathlib.Algebra.BigOperators.Group.Finset.Basic
import Mathlib.Algebra.Order.Group.Multiset
import Mathlib.Data.Fintype.Basic
import Hopline.Proofs.Bus.Quiet
import Hopline.Proofs.Ring.Journey
import Hopline.Proofs.Ring.Link

/-! The ledger of a ring. What has happened and what is still to happen to the frames on their
way are together what is to happen to the messages that were sent, each as if it were alone. -/

namespace Hopline

/-- Sums that differ in one place differ by as much as they do there. -/
theorem sum_of_differ {n : Nat} {M : Type} [AddCommMonoid M] {more less : Fin n → M} (place : Fin n) {extra : M}
    (here : more place = less place + extra) (others : ∀ other, other ≠ place → more other = less other) :
    ∑ device, more device = ∑ device, less device + extra := by
  have rest : ∑ device ∈ Finset.univ.erase place, more device = ∑ device ∈ Finset.univ.erase place, less device :=
    Finset.sum_congr rfl fun other apart => others other (Finset.ne_of_mem_erase apart)
  rw [← Finset.add_sum_erase _ more (Finset.mem_univ place), ← Finset.add_sum_erase _ less (Finset.mem_univ place),
    here, rest, add_right_comm]

namespace Disposal

def frames : Disposal → List Frame
  | .sent frame => [frame]
  | _ => []

def happenings {n : Nat} (device : Fin n) : Disposal → List (Happening n)
  | .handed handler frame => [.handed device handler frame]
  | .sent frame => [.sent device frame]
  | .dropped => []

variable {n : Nat} (disposal : Disposal) (device : Fin n)

theorem carried_eq : disposal.carried = Frame.wires .checksum disposal.frames := by
  cases disposal with
  | sent frame => exact (List.append_nil _).symm
  | _ => rfl

theorem deliveries_eq : disposal.heard.map (fun (handler, frame) => (⟨device.val, handler, frame⟩ : Delivery)) =
    (disposal.happenings device).filterMap Happening.delivery? := by
  cases disposal <;> rfl

theorem sendings_self : (disposal.happenings device).filterMap (Happening.sending? device) = disposal.frames := by
  cases disposal with
  | sent frame =>
    simp only [happenings, Happening.sending?, ↓reduceIte, List.filterMap_cons, List.filterMap_nil, frames]
  | _ => rfl

theorem sendings_other {other : Fin n} (apart : other ≠ device) :
    (disposal.happenings device).filterMap (Happening.sending? other) = [] := by
  cases disposal with
  | sent frame =>
    simp only [happenings, Happening.sending?, apart.symm, ↓reduceIte, List.filterMap_cons, List.filterMap_nil]
  | _ => rfl

theorem sum_size : ((disposal.happenings device).map Happening.size).sum = disposal.carried.length := by
  cases disposal with
  | sent frame => exact (frame.length_wire .checksum).symm
  | _ => rfl

end Disposal

namespace Placement

variable {n : Nat} (placement : Placement n)

/-- What is still to happen to a frame that comes to a device. -/
def upcoming (device : Fin n) (frame : Frame) : List (Happening n) :=
  placement.passage frame.ttl.toNat device frame

/-- What is to happen once routing has decided. -/
def outcome (device : Fin n) (disposal : Disposal) : List (Happening n) :=
  disposal.happenings device ++ disposal.frames.flatMap (placement.upcoming (Ring.next device))

theorem upcoming_of_fresh (device : Fin n) {frame : Frame} (fresh : frame.ttl ≠ 0) :
    placement.upcoming device frame =
      placement.outcome device ((placement device).dispose Ring.everyone .received frame) := by
  obtain ⟨left, budget⟩ : ∃ left : Nat, frame.ttl.toNat = left + 1 := by
    apply Nat.exists_eq_succ_of_ne_zero
    intro spent
    exact fresh (UInt8.toNat_inj.mp spent)
  have last : frame.ttl = 1 ↔ left = 0 := by
    rw [← UInt8.toNat_inj, budget]
    exact Nat.succ_inj
  rw [upcoming, budget, passage, node?]
  unfold Registry.dispose
  cases (placement device).resolve Ring.everyone frame.destination with
  | some handler => rfl
  | none =>
    dsimp only
    by_cases spent : left = 0
    · rw [if_pos spent, if_pos (last.mpr spent)]
      rfl
    · rw [if_neg spent, if_neg (mt last.mp spent), outcome, Disposal.frames, List.flatMap_singleton, upcoming,
        Frame.toNat_ttl_spent budget]
      rfl

end Placement

theorem Journey.itinerary_eq_outcome {n : Nat} (placement : Placement n) (journey : Journey n) :
    journey.itinerary placement =
      placement.outcome journey.start ((placement journey.start).dispose Ring.everyone .sent journey.frame) := by
  rw [itinerary, Placement.node?]
  unfold Registry.dispose
  cases (placement journey.start).resolve Ring.everyone journey.frame.destination with
  | some handler => rfl
  | none =>
    rw [Placement.outcome, Disposal.frames, List.flatMap_singleton]
    rfl

theorem Registry.fresh_of_dispose (registry : Registry) (origin : Origin) {frame : Frame} (fresh : frame.ttl ≠ 0) :
    ∀ sent ∈ (registry.dispose Ring.everyone origin frame).frames, sent.ttl ≠ 0 := by
  unfold dispose
  cases registry.resolve Ring.everyone frame.destination with
  | some handler => exact fun sent member => nomatch member
  | none =>
    cases origin with
    | sent =>
      intro sent member
      rw [List.mem_singleton.mp member]
      exact fresh
    | received =>
      dsimp only
      split
      next => exact fun sent member => nomatch member
      next further =>
        intro sent member
        rw [List.mem_singleton.mp member]
        intro spent
        exact further (sub_eq_zero.mp spent)

namespace Ring

variable {n : Nat} (ring : Ring n) (device : Fin n) (run : QuietRun)

theorem get_set {α : Type} (values : Vector α n) (place : Fin n) (value : α) :
    (fun device : Fin n => getElem (values.set place value place.isLt) device.val device.isLt) =
      Function.update (fun device : Fin n => getElem values device.val device.isLt) place value := by
  funext device
  rw [Function.update_apply, Vector.getElem_set]
  by_cases same : place = device
  · rw [if_pos (congrArg Fin.val same), if_pos same.symm]
  · rw [if_neg (mt Fin.ext same), if_neg (Ne.symm same)]

theorem bus_absorb : (ring.absorb device run).bus = Function.update ring.bus device run.bus :=
  get_set ring.buses device run.bus

theorem link_absorb :
    (ring.absorb device run).link = Function.update ring.link device (ring.link device ++ run.carried) :=
  get_set ring.links device (ring.link device ++ run.carried)

/-- A ring in which the device after `sender` has put a byte into its window, and no more. -/
def overhear (sender : Fin n) (byte : UInt8) (rest : Bytes) : Ring n :=
  { ring with
    buses := ring.buses.set (next sender)
      { ring.bus (next sender) with window := ((ring.bus (next sender)).window.ingest byte).window }
      (next sender).isLt
    links := ring.links.set sender rest sender.isLt
    moved := ring.moved + 1 }

theorem bus_overhear (sender : Fin n) (byte : UInt8) (rest : Bytes) :
    (ring.overhear sender byte rest).bus = Function.update ring.bus (next sender)
      { ring.bus (next sender) with window := ((ring.bus (next sender)).window.ingest byte).window } :=
  get_set ring.buses (next sender) _

theorem link_overhear (sender : Fin n) (byte : UInt8) (rest : Bytes) :
    (ring.overhear sender byte rest).link = Function.update ring.link sender rest :=
  get_set ring.links sender rest

theorem transfer_eq_absorb {sender : Fin n} {byte : UInt8} {rest : Bytes} (waiting : ring.link sender = byte :: rest) :
    ring.transfer sender = (ring.overhear sender byte rest).absorb (next sender)
      ((ring.bus (next sender)).ingestQuietly everyone byte) := by
  unfold transfer
  rw [waiting]
  dsimp only
  unfold hear absorb overhear
  dsimp only
  rw [Vector.set_set]
  rfl

end Ring

/-- Everything that is still to happen to the frames on their way. -/
def Placement.pending {n : Nat} (placement : Placement n) (underway : Fin n → List Frame) : Multiset (Happening n) :=
  ∑ device, Multiset.ofList ((underway device).flatMap (placement.upcoming (Ring.next device)))

/-- A ring that has been entered so far. What is `due` happens before anything else does. -/
structure Ring.Ledger {n : Nat} (placement : Placement n) (journeys : List (Journey n)) (taken : Fin n → Bytes)
    (due : List (Happening n)) (ring : Ring n) (underway : Fin n → List Frame) (log : List (Happening n)) : Prop where
  ready : ∀ device, (ring.bus device).Ready
  registry : ∀ device, (ring.bus device).registry = placement device
  plain : ∀ device, (ring.bus device).window.Plain
  links : ∀ device, Frame.Underway (ring.bus (next device)).window.bytes (ring.link device) (underway device)
  deliveries : ring.deliveries = log.filterMap Happening.delivery?
  taken : ∀ device, taken device = Frame.wires .checksum (log.filterMap (Happening.sending? device))
  moved : ring.moved + ∑ device, (ring.link device).length = (log.map Happening.size).sum
  balance : Multiset.ofList (log ++ due) + placement.pending underway =
    Multiset.ofList (journeys.flatMap (Journey.itinerary placement))

namespace Ring

variable {n : Nat} {placement : Placement n} {journeys : List (Journey n)} {taken : Fin n → Bytes}
  {due : List (Happening n)} {ring : Ring n} {underway : Fin n → List Frame} {log : List (Happening n)}

/-- What routing has decided is done, and nothing is due any more. -/
theorem Ledger.absorb {device : Fin n} {disposal : Disposal} {run : QuietRun}
    (ledger : Ledger placement journeys taken (placement.outcome device disposal) ring underway log)
    (fresh : ∀ frame ∈ disposal.frames, frame.ttl ≠ 0)
    (leaves : QuietRun.Leaves (placement device) (ring.bus device).window disposal.heard disposal.carried run) :
    Ledger placement journeys (Function.update taken device (taken device ++ run.carried)) [] (ring.absorb device run)
      (Function.update underway device (underway device ++ disposal.frames)) (log ++ disposal.happenings device) := by
  -- the frame left its window when it was heard, so routing it changes no stretch but the one ahead
  have windows (other : Fin n) : ((ring.absorb device run).bus other).window = (ring.bus other).window := by
    rw [bus_absorb]
    by_cases same : other = device
    · rw [same, Function.update_self, leaves.window]
    · rw [Function.update_of_ne same]
  constructor
  case ready =>
    rw [bus_absorb]
    apply (Function.forall_update_iff ring.bus fun _ bus => bus.Ready).mpr
    exact ⟨leaves.ready, fun other _ => ledger.ready other⟩
  case registry =>
    rw [bus_absorb]
    apply (Function.forall_update_iff ring.bus fun device bus => bus.registry = placement device).mpr
    exact ⟨leaves.registry, fun other _ => ledger.registry other⟩
  case plain =>
    intro other
    rw [windows]
    exact ledger.plain other
  case links =>
    intro other
    rw [windows, link_absorb]
    by_cases same : other = device
    · rw [same, Function.update_self, Function.update_self, leaves.carried, disposal.carried_eq]
      exact (ledger.links device).send fresh
    · rw [Function.update_of_ne same, Function.update_of_ne same]
      exact ledger.links other
  case deliveries =>
    rw [List.filterMap_append, ← ledger.deliveries, ← disposal.deliveries_eq, ← leaves.heard]
    rfl
  case taken =>
    intro other
    rw [List.filterMap_append]
    by_cases same : other = device
    · rw [same, Function.update_self, disposal.sendings_self, ledger.taken, leaves.carried, disposal.carried_eq,
        Frame.wires_append]
    · rw [Function.update_of_ne same, disposal.sendings_other device same, List.append_nil]
      exact ledger.taken other
  case moved =>
    have longer : ∑ other, ((ring.absorb device run).link other).length =
        ∑ other, (ring.link other).length + disposal.carried.length := by
      rw [link_absorb]
      apply sum_of_differ device
      · rw [Function.update_self, List.length_append, leaves.carried]
      · intro other apart
        rw [Function.update_of_ne apart]
    rw [longer, List.map_append, List.sum_append, ← ledger.moved, disposal.sum_size, ← Nat.add_assoc]
    rfl
  case balance =>
    have onward : placement.pending (Function.update underway device (underway device ++ disposal.frames)) =
        placement.pending underway + Multiset.ofList (disposal.frames.flatMap (placement.upcoming (next device))) := by
      apply sum_of_differ device
      · rw [Function.update_self, List.flatMap_append, Multiset.coe_add]
      · intro other apart
        rw [Function.update_of_ne apart]
    rw [← ledger.balance, onward, List.append_nil, Placement.outcome, ← List.append_assoc,
      ← Multiset.coe_add (log ++ disposal.happenings device), add_assoc, add_comm (placement.pending underway)]

theorem Ledger.hear (ledger : Ledger placement journeys taken [] ring underway log) {sender : Fin n} {byte : UInt8}
    {rest : Bytes} (waiting : ring.link sender = byte :: rest) {later : List Frame}
    (plain : ((ring.bus (next sender)).window.ingest byte).window.Plain)
    (between : Frame.Underway ((ring.bus (next sender)).window.ingest byte).window.bytes rest later)
    (owed : Multiset.ofList ((underway sender).flatMap (placement.upcoming (next sender))) =
      Multiset.ofList (later.flatMap (placement.upcoming (next sender))) + Multiset.ofList due) :
    Ledger placement journeys taken due (ring.overhear sender byte rest) (Function.update underway sender later)
      log := by
  constructor
  case ready =>
    rw [bus_overhear]
    apply (Function.forall_update_iff ring.bus fun _ bus => bus.Ready).mpr
    have same := ledger.ready (next sender)
    exact ⟨⟨same.queue, same.line⟩, fun other _ => ledger.ready other⟩
  case registry =>
    rw [bus_overhear]
    apply (Function.forall_update_iff ring.bus fun device bus => bus.registry = placement device).mpr
    exact ⟨ledger.registry (next sender), fun other _ => ledger.registry other⟩
  case plain =>
    rw [bus_overhear]
    apply (Function.forall_update_iff ring.bus fun _ bus => bus.window.Plain).mpr
    exact ⟨plain, fun other _ => ledger.plain other⟩
  case links =>
    intro other
    rw [bus_overhear, link_overhear]
    by_cases same : other = sender
    · rw [same, Function.update_self, Function.update_self, Function.update_self]
      exact between
    · rw [Function.update_of_ne same, Function.update_of_ne same, Function.update_of_ne (next_injective.ne same)]
      exact ledger.links other
  case deliveries => exact ledger.deliveries
  case taken => exact ledger.taken
  case moved =>
    have shorter : ∑ other, (ring.link other).length =
        ∑ other, ((ring.overhear sender byte rest).link other).length + 1 := by
      rw [link_overhear]
      apply sum_of_differ sender
      · rw [Function.update_self, waiting, List.length_cons]
      · intro other apart
        rw [Function.update_of_ne apart]
    rw [← ledger.moved, shorter, ← Nat.add_assoc, Nat.add_right_comm]
    rfl
  case balance =>
    have arrived : placement.pending underway =
        placement.pending (Function.update underway sender later) + Multiset.ofList due := by
      apply sum_of_differ sender
      · rw [Function.update_self]
        exact owed
      · intro other apart
        rw [Function.update_of_ne apart]
    rw [← ledger.balance, arrived, List.append_nil, ← Multiset.coe_add, add_right_comm, add_assoc]

end Ring

end Hopline

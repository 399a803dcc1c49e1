import Hopline.Proofs.Ring.Delivery
import Hopline.Proofs.Ring.Pumping

/-! One message in a ring, hop by hop. Each device that it comes to sends it on whole, until one hands it
over or its budget is used up; everything else in the ring stays as it is. -/

namespace Hopline

namespace Ring

variable {n : Nat}

theorem next_ahead (device : Fin n) (hops : Nat) : next (ahead device hops) = ahead device (hops + 1) :=
  Fin.ext (Nat.mod_add_mod _ _ _)

theorem previous_ahead (device : Fin n) (hops : Nat) : previous (ahead device (hops + 1)) = ahead device hops := by
  apply next_injective
  rw [next_previous, next_ahead]

theorem ahead_inj {device : Fin n} {first second : Nat} (near : first < n) (near' : second < n)
    (same : ahead device first = ahead device second) : first = second := by
  have congruent : device.val + first ≡ device.val + second [MOD n] := congrArg Fin.val same
  have shifted := Nat.ModEq.add_left_cancel' device.val congruent
  rw [Nat.ModEq, Nat.mod_eq_of_lt near, Nat.mod_eq_of_lt near'] at shifted
  exact shifted

theorem ahead_ne_next {device : Fin n} {hops : Nat} (near : hops + 1 < n) :
    ahead device hops ≠ ahead device (hops + 1) := by
  intro same
  exact Nat.ne_of_lt (Nat.lt_succ_self hops) (ahead_inj (Nat.lt_of_succ_lt near) near same)

/-- How many hops lead from one device to another. -/
def distance (source target : Fin n) : Nat := (target.val + (n - source.val)) % n

theorem distance_lt (source target : Fin n) : distance source target < n :=
  Nat.mod_lt _ (Nat.zero_lt_of_lt source.isLt)

theorem ahead_distance (source target : Fin n) : ahead source (distance source target) = target := by
  have inside := source.isLt
  have around : source.val + (target.val + (n - source.val)) = target.val + n := by omega
  apply Fin.ext
  show (source.val + (target.val + (n - source.val)) % n) % n = target.val
  rw [Nat.add_mod_mod, around, Nat.add_mod_right, Nat.mod_eq_of_lt target.isLt]

theorem distance_last {source device : Fin n} (last : device.val + 1 = n) :
    distance source device = n - 1 - source.val := by
  have inside := source.isLt
  have around : device.val + (n - source.val) = n - 1 - source.val + n := by omega
  rw [distance, around, Nat.add_mod_right]
  apply Nat.mod_eq_of_lt
  omega

theorem ahead_of_due {start : Fin n} {hops count : Nat} (due : (ahead start hops).val ≤ count) (inside : count < n) :
    ahead start (hops + (count - (ahead start hops).val)) = ⟨count, inside⟩ := by
  apply Fin.ext
  show (start.val + (hops + (count - (ahead start hops).val))) % n = count
  rw [← Nat.add_assoc, ← Nat.mod_add_mod]
  show ((ahead start hops).val + (count - (ahead start hops).val)) % n = count
  rw [Nat.add_sub_cancel' due, Nat.mod_eq_of_lt inside]

theorem sum_ahead (start : Fin n) (count : Fin n → Nat) :
    ((List.finRange n).map count).sum = ∑ place : Fin n, count (ahead start place.val) := by
  have onto : Function.Bijective fun place : Fin n => ahead start place.val := by
    apply Finite.injective_iff_bijective.mp
    intro first second same
    exact Fin.ext (ahead_inj first.isLt second.isLt same)
  rw [← Fin.sum_univ_def]
  exact (onto.sum_comp count).symm

end Ring

/-- A bus at rest between two frames on a clean line. -/
structure Bus.Calm (registry : Registry) (bus : Bus) : Prop where
  ready : bus.Ready
  registry : bus.registry = registry
  plain : bus.window.Plain
  empty : bus.window.bytes = []
  rejected : bus.window.stats.rejected = 0

namespace Bus.Calm

variable {bus : Bus} {registry : Registry} {frame : Frame}

theorem signal (calm : bus.Calm registry) (fresh : frame.ttl ≠ 0) :
    let disposal := registry.dispose Ring.everyone .sent frame
    let run := bus.signalQuietly Ring.everyone frame.toMessage
    run.bus.Calm registry ∧ run.bus.counters = disposal.count .sent bus.counters ∧ run.heard = disposal.heard ∧
      run.carried = disposal.carried ∧ run.result = .ok () := by
  have settles := @Bus.settles_signal bus frame Ring.everyone calm.ready fresh
  have window := settles.window
  rw [calm.registry] at settles
  refine ⟨⟨settles.ready, settles.registry, ?_, ?_, ?_⟩, settles.counters, settles.heard, settles.carried,
    settles.result⟩
  · exact window ▸ calm.plain
  · exact window ▸ calm.empty
  · exact window ▸ calm.rejected

theorem listen (calm : bus.Calm registry) (fresh : frame.ttl ≠ 0) :
    let disposal := registry.dispose Ring.everyone .received frame
    let run := bus.listenQuietly Ring.everyone (frame.wire .checksum)
    run.bus.Calm registry ∧ run.bus.counters = disposal.count .received bus.counters ∧ run.heard = disposal.heard ∧
      run.carried = disposal.carried := by
  have settles := Bus.settles_wire calm.ready calm.plain calm.empty Ring.everyone frame 0
  obtain ⟨-, plain, empty, stats⟩ := Window.feedFrom_frame calm.plain calm.empty frame 0
  rw [Registry.relay_of_fresh fresh, calm.registry] at settles
  rw [← settles.window] at plain empty stats
  refine ⟨⟨settles.ready, settles.registry, plain, empty, ?_⟩, settles.counters, settles.heard, settles.carried⟩
  rw [stats]
  exact calm.rejected

end Bus.Calm

namespace Placement

variable {n : Nat} (placement : Placement n) (device : Fin n)

theorem bus_ring : placement.ring.bus device = { Bus.ofConfig .standard with registry := placement device } :=
  Vector.getElem_ofFn _

theorem calm_ring : (placement.ring.bus device).Calm (placement device) := by
  rw [placement.bus_ring]
  exact ⟨⟨rfl, rfl⟩, rfl, ⟨rfl, rfl⟩, rfl, rfl⟩

end Placement

namespace Journey

open Hopline.Ring

variable {n : Nat} (placement : Placement n) (journey : Journey n)

/-- The frame in which the message comes to a device after some hops. -/
def arriving : Nat → Frame
  | 0 => journey.frame
  | hops + 1 => journey.frame.withTtl (UInt8.ofNat (journey.frame.ttl.toNat - hops))

/-- Where a device has the message from. -/
def origin : Nat → Origin
  | 0 => .sent
  | _ + 1 => .received

/-- What a device does with the message when it comes there after some hops. -/
def disposal (hops : Nat) : Disposal :=
  (placement (ahead journey.start hops)).dispose everyone (origin hops) (journey.arriving hops)

variable {placement journey} {hops nearest : Nat} {handler : HandlerId}

theorem toMessage_arriving (journey : Journey n) (hops : Nat) :
    (journey.arriving hops).toMessage = { journey.frame.toMessage with ttl := (journey.arriving hops).ttl } := by
  cases hops <;> rfl

theorem toNat_ttl_arriving (hops : Nat) :
    (journey.arriving hops).ttl.toNat = journey.frame.ttl.toNat - (hops - 1) := by
  cases hops with
  | zero => rfl
  | succ hops =>
    apply UInt8.toNat_ofNat_of_lt'
    exact Nat.lt_of_le_of_lt (Nat.sub_le _ _) (UInt8.toNat_lt _)

theorem fresh_arriving (before : hops ≤ journey.frame.ttl.toNat) : (journey.arriving hops).ttl ≠ 0 := by
  have positive := journey.ttl_pos
  have left := @toNat_ttl_arriving n journey hops
  intro spent
  rw [spent] at left
  have none : 0 = journey.frame.ttl.toNat - (hops - 1) := left
  omega

theorem resolve_of_before (found : journey.goal placement = some (nearest, handler)) (before : hops < nearest) :
    (placement (ahead journey.start hops)).resolve everyone (journey.arriving hops).destination = none := by
  obtain ⟨-, -, earlier⟩ := Placement.nearest?_eq_some.mp found
  have same := congrArg Message.destination (journey.toMessage_arriving hops)
  rw [same]
  exact earlier hops before

/-- On its way the message is sent on. -/
theorem disposal_onward (found : journey.goal placement = some (nearest, handler)) (before : hops < nearest)
    (within : hops < journey.frame.ttl.toNat) :
    journey.disposal placement hops = .sent (journey.arriving (hops + 1)) := by
  unfold disposal Registry.dispose
  rw [resolve_of_before found before]
  cases hops with
  | zero => exact congrArg Disposal.sent journey.frame.withTtl_ttl.symm
  | succ hops =>
    have left := @toNat_ttl_arriving n journey (hops + 1)
    have further : (journey.arriving (hops + 1)).ttl ≠ 1 := by
      intro last
      rw [last] at left
      have one : 1 = journey.frame.ttl.toNat - hops := left
      omega
    have budget : (journey.arriving (hops + 1)).ttl.toNat = journey.frame.ttl.toNat - (hops + 1) + 1 := by
      rw [left]
      omega
    have less : (journey.arriving (hops + 1)).ttl - 1 = UInt8.ofNat (journey.frame.ttl.toNat - (hops + 1)) := by
      rw [← Frame.toNat_ttl_spent budget]
      exact UInt8.ofNat_toNat.symm
    refine (if_neg further).trans ?_
    rw [less]
    rfl

/-- A budget that ends on the way is used up. -/
theorem disposal_expired (found : journey.goal placement = some (nearest, handler)) (short : journey.frame.ttl.toNat < nearest) :
    journey.disposal placement journey.frame.ttl.toNat = .dropped := by
  have left := @toNat_ttl_arriving n journey journey.frame.ttl.toNat
  have none := resolve_of_before found short
  obtain ⟨hops, budget⟩ : ∃ hops, journey.frame.ttl.toNat = hops + 1 :=
    Nat.exists_eq_succ_of_ne_zero (Nat.ne_of_gt journey.ttl_pos)
  unfold disposal Registry.dispose
  rw [none]
  rw [budget, Nat.add_sub_cancel, Nat.add_sub_cancel_left] at left
  rw [budget]
  exact if_pos (UInt8.toNat_inj.mp left)

theorem disposal_arrived (found : journey.goal placement = some (nearest, handler)) :
    journey.disposal placement nearest = .handed handler (journey.arriving nearest) := by
  obtain ⟨-, here, -⟩ := Placement.nearest?_eq_some.mp found
  have same := congrArg Message.destination (journey.toMessage_arriving nearest)
  have resolved : (placement (ahead journey.start nearest)).resolve everyone journey.frame.destination = some handler :=
    here
  unfold disposal Registry.dispose
  rw [same, resolved]

/-- The message has come to the device after some hops, which has done with it what it does, and nothing else
has happened in the ring. -/
structure Reached (placement : Placement n) (journey : Journey n) (hops : Nat) (ring : Ring n) : Prop where
  calm : ∀ device, (ring.bus device).Calm (placement device)
  counters : ∀ place < n, (ring.bus (ahead journey.start place)).counters =
    if place ≤ hops then (journey.disposal placement place).count (origin place) .zero else .zero
  links : ∀ device, ring.link device =
    if device = ahead journey.start hops then (journey.disposal placement hops).carried else []
  deliveries : ring.deliveries = (journey.disposal placement hops).heard.map fun (handler, frame) =>
    ⟨(ahead journey.start hops).val, handler, frame⟩
  moved : ring.moved = hops * journey.frame.wireSize

theorem reached_signal (placement : Placement n) (journey : Journey n) :
    journey.Reached placement 0 (placement.ring.signal journey.start journey.frame.toMessage).1 := by
  have link (device : Fin n) : placement.ring.link device = [] := Vector.getElem_replicate _
  have zero (device : Fin n) : (placement.ring.bus device).counters = .zero := by
    rw [placement.bus_ring]
    rfl
  have here : (placement journey.start).dispose everyone .sent journey.frame = journey.disposal placement 0 := by
    rw [disposal, ahead_zero]
    rfl
  obtain ⟨calm, counters, heard, carried, -⟩ := (placement.calm_ring journey.start).signal journey.fresh
  rw [here] at counters heard carried
  rw [zero] at counters
  show journey.Reached placement 0 (placement.ring.absorb journey.start _)
  constructor
  case calm =>
    rw [bus_absorb]
    apply (Function.forall_update_iff placement.ring.bus fun device bus => bus.Calm (placement device)).mpr
    exact ⟨calm, fun device _ => placement.calm_ring device⟩
  case counters =>
    intro place near
    rw [bus_absorb]
    by_cases first : place = 0
    · rw [first, ahead_zero, Function.update_self, counters]
      rfl
    · have apart : ahead journey.start place ≠ journey.start := by
        intro same
        exact first (ahead_inj near (Nat.zero_lt_of_lt near) (same.trans (ahead_zero journey.start).symm))
      rw [Function.update_of_ne apart, zero, if_neg (mt Nat.le_zero.mp first)]
  case links =>
    intro device
    rw [link_absorb, ahead_zero]
    by_cases same : device = journey.start
    · rw [same, Function.update_self, link, carried]
      exact (if_pos rfl).symm
    · rw [Function.update_of_ne same, link, if_neg same]
  case deliveries =>
    rw [ahead_zero, ← heard]
    rfl
  case moved => exact (Nat.zero_mul _).symm

theorem signal_ok (placement : Placement n) (journey : Journey n) :
    (placement.ring.signal journey.start journey.frame.toMessage).2 = .ok () := by
  obtain ⟨-, -, -, -, result⟩ := (placement.calm_ring journey.start).signal journey.fresh
  exact result

theorem lt_of_goal (found : journey.goal placement = some (nearest, handler)) : nearest < n := by
  obtain ⟨inside, -⟩ := Placement.nearest?_eq_some.mp found
  exact inside

variable {ring : Ring n}

/-- In its turn the next device hears the message, whole. -/
theorem Reached.hears (reached : journey.Reached placement hops ring) (found : journey.goal placement = some (nearest, handler))
    (before : hops < nearest) (within : hops < journey.frame.ttl.toNat) :
    Hears (ahead journey.start (hops + 1)) ((journey.arriving (hops + 1)).wire .checksum) ring
      (ring.listen (ahead journey.start (hops + 1))) := by
  have near : hops + 1 < n := Nat.lt_of_le_of_lt before (lt_of_goal found)
  have sender := previous_ahead journey.start hops
  have waiting : ring.link (ahead journey.start hops) = (journey.arriving (hops + 1)).wire .checksum := by
    rw [reached.links, if_pos rfl, disposal_onward found before within]
    rfl
  have hears := hears_listen (sender ▸ ahead_ne_next near) ring
  rw [sender, waiting] at hears
  exact hears

/-- One turn takes the message one hop on. -/
theorem Reached.onward (reached : journey.Reached placement hops ring) (found : journey.goal placement = some (nearest, handler))
    (before : hops < nearest) (within : hops < journey.frame.ttl.toNat) :
    journey.Reached placement (hops + 1) (ring.listen (ahead journey.start (hops + 1))) := by
  have hears := reached.hears found before within
  obtain ⟨device, here⟩ : ∃ device, ahead journey.start (hops + 1) = device := ⟨_, rfl⟩
  have near : hops + 1 < n := Nat.lt_of_le_of_lt before (lt_of_goal found)
  have sender : previous device = ahead journey.start hops := by rw [← here, previous_ahead]
  have apart : device ≠ ahead journey.start hops := here ▸ (ahead_ne_next near).symm
  have sent := disposal_onward found before within
  have unused : (ring.bus device).counters = .zero := by
    rw [← here, reached.counters (hops + 1) near, if_neg (Nat.not_succ_le_self hops)]
  have done : (placement device).dispose everyone .received (journey.arriving (hops + 1)) =
      journey.disposal placement (hops + 1) := by
    rw [disposal, here]
    rfl
  obtain ⟨calm, counters, heard, carried⟩ := (reached.calm device).listen (fresh_arriving within)
  rw [done] at counters heard carried
  rw [unused] at counters
  rw [here] at hears ⊢
  constructor
  case calm =>
    rw [hears.bus]
    apply (Function.forall_update_iff ring.bus fun device bus => bus.Calm (placement device)).mpr
    exact ⟨calm, fun other _ => reached.calm other⟩
  case counters =>
    intro place inside
    rw [hears.bus]
    by_cases same : place = hops + 1
    · rw [same, here, Function.update_self, counters, if_pos (Nat.le_refl _)]
      rfl
    · have other : ahead journey.start place ≠ device := by
        rw [← here]
        exact fun equal => same (ahead_inj inside near equal)
      rw [Function.update_of_ne other, reached.counters place inside]
      apply if_congr ?_ rfl rfl
      omega
  case links =>
    -- the bytes have left the link before the device, and its own link was empty
    intro other
    rw [here]
    by_cases same : other = device
    · rw [same, hears.outgoing, reached.links, if_neg apart, carried, if_pos rfl]
      rfl
    · rw [if_neg same]
      by_cases behind : other = previous device
      · have waiting := hears.waiting
        rw [sender, reached.links, if_pos rfl, sent] at waiting
        rw [behind, sender]
        exact List.self_eq_append_right.mp waiting
      · rw [hears.others other same behind, reached.links, if_neg (sender ▸ behind)]
  case deliveries =>
    rw [hears.deliveries, heard, reached.deliveries, sent, here]
    rfl
  case moved =>
    rw [hears.moved, reached.moved, Frame.length_wire, Nat.succ_mul]
    rfl

/-- The turn of any other device passes in silence. -/
theorem Reached.listen_elsewhere (reached : journey.Reached placement hops ring) {device : Fin n}
    (elsewhere : device ≠ ahead journey.start (hops + 1)) : ring.listen device = ring := by
  apply listen_of_silent
  rw [reached.links]
  apply if_neg
  intro sender
  rw [← next_previous device, sender, next_ahead] at elsewhere
  exact elsewhere rfl

theorem Reached.listen_ended (reached : journey.Reached placement hops ring)
    (ended : (journey.disposal placement hops).carried = []) (device : Fin n) : ring.listen device = ring := by
  apply listen_of_silent
  rw [reached.links, ended]
  exact ite_self _

theorem transmissions_eq (found : journey.goal placement = some (nearest, handler)) :
    journey.transmissions placement = min nearest journey.frame.ttl.toNat := by
  rw [transmissions, found]

theorem transmissions_lt (found : journey.goal placement = some (nearest, handler)) : journey.transmissions placement < n := by
  rw [transmissions_eq found]
  exact Nat.lt_of_le_of_lt (Nat.min_le_left _ _) (lt_of_goal found)

theorem carried_last (found : journey.goal placement = some (nearest, handler)) :
    (journey.disposal placement (journey.transmissions placement)).carried = [] := by
  rw [transmissions_eq found]
  rcases Nat.lt_or_ge journey.frame.ttl.toNat nearest with short | enough
  · rw [Nat.min_eq_right short.le, disposal_expired found short]
    rfl
  · rw [Nat.min_eq_left enough, disposal_arrived found]
    rfl

theorem Reached.deliveries_arrived (reached : journey.Reached placement (journey.transmissions placement) ring)
    (found : journey.goal placement = some (nearest, handler)) (enough : nearest ≤ journey.frame.ttl.toNat) :
    ring.deliveries = [⟨(ahead journey.start nearest).val, handler, journey.arriving nearest⟩] := by
  rw [reached.deliveries, transmissions_eq found, Nat.min_eq_left enough, disposal_arrived found]
  rfl

theorem Reached.deliveries_expired (reached : journey.Reached placement (journey.transmissions placement) ring)
    (found : journey.goal placement = some (nearest, handler)) (short : journey.frame.ttl.toNat < nearest) :
    ring.deliveries = [] := by
  rw [reached.deliveries, transmissions_eq found, Nat.min_eq_right short.le, disposal_expired found short]
  rfl

/-- Who has sent the message and who has dropped it, once it has come as far as it can. -/
theorem Reached.tally (reached : journey.Reached placement (journey.transmissions placement) ring)
    (found : journey.goal placement = some (nearest, handler)) {place : Nat} (near : place < n) :
    let last := journey.transmissions placement
    let counters := (ring.bus (ahead journey.start place)).counters
    counters.transmitted.toNat = (if place < last then 1 else 0) ∧
      counters.expired.toNat = if place = last ∧ journey.frame.ttl.toNat < nearest then 1 else 0 := by
  intro last counters
  have bounds : last = min nearest journey.frame.ttl.toNat := transmissions_eq found
  have counted : counters = if place ≤ last then (journey.disposal placement place).count (origin place) .zero
      else .zero := reached.counters place near
  rcases Nat.lt_trichotomy place last with before | there | beyond
  · have sent := @disposal_onward n placement journey place nearest handler found (by omega) (by omega)
    rw [if_pos before.le, sent] at counted
    rw [counted, if_pos before, if_neg (by omega)]
    cases place <;> exact ⟨rfl, rfl⟩
  · rw [if_pos there.le] at counted
    rw [counted, if_neg there.not_lt]
    rcases Nat.lt_or_ge journey.frame.ttl.toNat nearest with short | enough
    · have spent : place = journey.frame.ttl.toNat := by omega
      have dropped := disposal_expired found short
      rw [← spent] at dropped
      rw [dropped, if_pos ⟨there, short⟩]
      exact ⟨rfl, rfl⟩
    · have arrived : place = nearest := by omega
      have handed := disposal_arrived found
      rw [← arrived] at handed
      rw [handed, if_neg (fun both => Nat.not_lt.mpr enough both.2)]
      exact ⟨rfl, rfl⟩
  · rw [if_neg (Nat.not_le.mpr beyond)] at counted
    rw [counted, if_neg (Nat.not_lt.mpr beyond.le), if_neg (by omega)]
    exact ⟨rfl, rfl⟩

theorem Reached.sum_transmitted (reached : journey.Reached placement (journey.transmissions placement) ring)
    (found : journey.goal placement = some (nearest, handler)) :
    ((List.finRange n).map fun device => (ring.bus device).counters.transmitted.toNat).sum =
      journey.transmissions placement := by
  have near := transmissions_lt found
  have senders : (Finset.range n).filter (· < journey.transmissions placement) =
      Finset.range (journey.transmissions placement) := by
    ext place
    simp only [Finset.mem_filter, Finset.mem_range]
    omega
  rw [sum_ahead journey.start]
  simp only [fun place : Fin n => (reached.tally found place.isLt).1]
  rw [Fin.sum_univ_eq_sum_range (fun place => if place < journey.transmissions placement then 1 else 0) n,
    Finset.sum_boole, senders, Finset.card_range]
  rfl

theorem Reached.sum_expired (reached : journey.Reached placement (journey.transmissions placement) ring)
    (found : journey.goal placement = some (nearest, handler)) :
    ((List.finRange n).map fun device => (ring.bus device).counters.expired.toNat).sum =
      if journey.frame.ttl.toNat < nearest then 1 else 0 := by
  have near := transmissions_lt found
  rw [sum_ahead journey.start]
  simp only [fun place : Fin n => (reached.tally found place.isLt).2]
  rw [Fin.sum_univ_eq_sum_range
    (fun place => if place = journey.transmissions placement ∧ journey.frame.ttl.toNat < nearest then 1 else 0) n]
  by_cases short : journey.frame.ttl.toNat < nearest
  · simp only [short, and_true, if_true, Finset.sum_ite_eq', Finset.mem_range, near]
  · simp only [short, and_false, if_false, Finset.sum_const_zero]

end Journey

end Hopline

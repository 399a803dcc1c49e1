import Mathlib.Data.Nat.Basic
import Mathlib.Data.Option.Basic
import Mathlib.Data.Prod.Basic
import Hopline.Ring.Basic

/-! What is to happen to one message in a ring, as if it were alone: hop by hop, and all at once.
The two agree, since the devices come round again after as many hops as there are devices. -/

namespace Hopline

namespace Ring

variable {n : Nat}

/-- The device that many hops ahead. -/
def ahead (device : Fin n) (hops : Nat) : Fin n :=
  ⟨(device.val + hops) % n, Nat.mod_lt _ (Nat.zero_lt_of_lt device.isLt)⟩

@[simp] theorem ahead_zero (device : Fin n) : ahead device 0 = device := Fin.ext (Nat.mod_eq_of_lt device.isLt)

@[simp] theorem ahead_next (device : Fin n) (hops : Nat) : ahead (next device) hops = ahead device (hops + 1) := by
  apply Fin.ext
  simp only [ahead, next, Nat.mod_add_mod, Nat.add_assoc, Nat.add_comm 1]

theorem ahead_mod (device : Fin n) (hops : Nat) : ahead device (hops % n) = ahead device hops :=
  Fin.ext (Nat.add_mod_mod _ _ _)

theorem next_injective : Function.Injective (@next n) := by
  intro first second same
  have places : (first.val + 1) % n = (second.val + 1) % n := congrArg Fin.val same
  have moved (device : Fin n) :
      (device.val + 1) % n = device.val + 1 ∨ device.val + 1 = n ∧ (device.val + 1) % n = 0 := by
    rcases Nat.lt_or_ge (device.val + 1) n with inside | past
    · exact .inl (Nat.mod_eq_of_lt inside)
    · have last : device.val + 1 = n := by omega
      exact .inr ⟨last, by rw [last, Nat.mod_self]⟩
  apply Fin.ext
  rcases moved first with here | here <;> rcases moved second with there | there <;> omega

end Ring

/-- Which handlers listen on each device. -/
abbrev Placement (n : Nat) := Fin n → Registry

namespace Placement

variable {n : Nat} (placement : Placement n)

/-- The handler that a device hands messages to an address. -/
def node? (address : Address) (device : Fin n) : Option HandlerId := (placement device).resolve Ring.everyone address

/-- The fewest hops that lead from a device to a handler at an address, if they are less than `count`, and the
handler. -/
def nearest? (address : Address) (count : Nat) (device : Fin n) : Option (Nat × HandlerId) :=
  (List.range count).findSome? fun hops => (placement.node? address (Ring.ahead device hops)).map (hops, ·)

variable {placement} {address : Address} {count hops : Nat} {device : Fin n} {handler : HandlerId}

theorem node?_eq (address : Address) (device : Fin n) : placement.node? address device =
    ((placement device).entries.find? fun entry => entry.address == address).map Registration.handler := by
  simp only [node?, Registry.resolve, Ring.everyone, Bool.and_true]

theorem nearest?_here (here : placement.node? address device = some handler) :
    placement.nearest? address (count + 1) device = some (0, handler) := by
  rw [nearest?, List.range_succ_eq_map, List.findSome?_cons, Ring.ahead_zero, here]
  rfl

theorem nearest?_onward (away : placement.node? address device = none) :
    placement.nearest? address (count + 1) device =
      (placement.nearest? address count (Ring.next device)).map (Prod.map Nat.succ id) := by
  rw [nearest?, nearest?, List.range_succ_eq_map, List.findSome?_cons, Ring.ahead_zero, away, Option.map_none,
    List.findSome?_map, List.map_findSome?]
  simp only [Function.comp_def, Ring.ahead_next, Option.map_map, Nat.succ_eq_add_one, Prod.map, id_eq]

theorem nearest?_eq_none : placement.nearest? address count device = none ↔
    ∀ hops < count, placement.node? address (Ring.ahead device hops) = none := by
  simp only [nearest?, List.findSome?_eq_none_iff, List.mem_range, Option.map_eq_none_iff]

theorem nearest?_eq_some : placement.nearest? address count device = some (hops, handler) ↔
    hops < count ∧ placement.node? address (Ring.ahead device hops) = some handler ∧
      ∀ earlier < hops, placement.node? address (Ring.ahead device earlier) = none := by
  induction count generalizing device hops with
  | zero =>
    constructor
    · intro found
      cases found
    · rintro ⟨inside, -⟩
      exact absurd inside (Nat.not_lt_zero _)
  | succ count ih =>
    cases here : placement.node? address device with
    | some own =>
      rw [nearest?_here here]
      constructor
      · intro same
        cases same
        exact ⟨Nat.succ_pos _, (Ring.ahead_zero device).symm ▸ here, fun earlier before => absurd before (Nat.not_lt_zero _)⟩
      · rintro ⟨_, found, before⟩
        cases hops with
        | zero =>
          rw [Ring.ahead_zero, here] at found
          cases found
          rfl
        | succ hops =>
          have absent := before 0 (Nat.succ_pos _)
          rw [Ring.ahead_zero, here] at absent
          cases absent
    | none =>
      rw [nearest?_onward here]
      cases hops with
      | zero =>
        constructor
        · intro found
          obtain ⟨_, _, same⟩ := Option.map_eq_some_iff.mp found
          exact absurd (congrArg Prod.fst same) (Nat.succ_ne_zero _)
        · rintro ⟨_, found, _⟩
          rw [Ring.ahead_zero, here] at found
          cases found
      | succ hops =>
        have injective : Function.Injective (Prod.map Nat.succ (@id HandlerId)) :=
          Nat.succ_injective.prodMap Function.injective_id
        have shifted : (placement.nearest? address count (Ring.next device)).map (Prod.map Nat.succ id) =
            some (hops + 1, handler) ↔ placement.nearest? address count (Ring.next device) = some (hops, handler) :=
          (Option.map_injective injective).eq_iff' rfl
        rw [shifted, ih]
        simp only [Ring.ahead_next, Nat.succ_lt_succ_iff, Nat.forall_lt_succ_left, Ring.ahead_zero, here, true_and]

end Placement

/-- Something that the lines or the nodes of a ring see. -/
inductive Happening (n : Nat)
  | sent (device : Fin n) (frame : Frame)
  | handed (device : Fin n) (handler : HandlerId) (frame : Frame)
deriving DecidableEq

namespace Happening

variable {n : Nat}

def delivery? : Happening n → Option Delivery
  | .handed device handler frame => some ⟨device.val, handler, frame⟩
  | .sent .. => none

/-- The frame that `device` sends. -/
def sending? (device : Fin n) : Happening n → Option Frame
  | .sent sender frame => if sender = device then some frame else none
  | .handed .. => none

def size : Happening n → Nat
  | .sent _ frame => frame.wireSize
  | .handed .. => 0

end Happening

/-- A message that may be sent, and the device that sends it. -/
structure Journey (n : Nat) where
  start : Fin n
  frame : Frame
  fresh : frame.ttl ≠ 0

namespace Journey

variable {n : Nat} (placement : Placement n) (journey : Journey n)

/-- The fewest hops that lead to a handler at the destination, and the handler. -/
def goal : Option (Nat × HandlerId) := placement.nearest? journey.frame.destination n journey.start

/-- How many devices send the message. -/
def transmissions : Nat :=
  match journey.goal placement with
  | some (hops, _) => min hops journey.frame.ttl.toNat
  | none => journey.frame.ttl.toNat

/-- How the message is handed over, if it is. -/
def handover : Option (Happening n) :=
  match journey.goal placement with
  | none => none
  | some (hops, handler) =>
    if hops = 0 then some (.handed journey.start handler journey.frame)
    else if hops ≤ journey.frame.ttl.toNat then
      some (.handed (Ring.ahead journey.start hops) handler
        (journey.frame.withTtl (UInt8.ofNat (journey.frame.ttl.toNat - hops + 1))))
    else none

/-- The bytes that the message may move: its frame, once for each hop that it is allowed. -/
def cost : Nat := journey.frame.ttl.toNat * journey.frame.wireSize

/-- Everything that is to happen to the message. -/
def fate : List (Happening n) :=
  ((List.range (journey.transmissions placement)).map fun hops =>
    .sent (Ring.ahead journey.start hops)
      (journey.frame.withTtl (UInt8.ofNat (journey.frame.ttl.toNat - hops)))) ++
  (journey.handover placement).toList

end Journey

namespace Placement

variable {n : Nat} (placement : Placement n)

/-- What is still to happen to a frame that comes to a device with as many hops left as it says. -/
def passage : (left : Nat) → Fin n → Frame → List (Happening n)
  | 0, _, _ => []
  | left + 1, device, frame =>
    match placement.node? frame.destination device with
    | some handler => [.handed device handler frame]
    | none =>
      if left = 0 then []
      else
        let passed := frame.withTtl (frame.ttl - 1)
        .sent device passed :: passage left (Ring.next device) passed

end Placement

theorem Frame.withTtl_ttl (frame : Frame) : frame.withTtl (UInt8.ofNat frame.ttl.toNat) = frame := by
  rw [UInt8.ofNat_toNat]
  rfl

theorem Frame.toNat_ttl_spent {frame : Frame} {left : Nat} (budget : frame.ttl.toNat = left + 1) :
    (frame.withTtl (frame.ttl - 1)).ttl.toNat = left := by
  have enough : (1 : UInt8) ≤ frame.ttl := by
    rw [UInt8.le_iff_toNat_le, budget]
    exact Nat.le_add_left 1 left
  have spent : (frame.ttl - 1).toNat = frame.ttl.toNat - 1 := UInt8.toNat_sub_of_le _ _ enough
  rw [budget] at spent
  exact spent

namespace Placement

variable {n : Nat} (placement : Placement n)

/-- What happens to a frame that comes to a device from which so many hops lead to the handler. -/
def course (goal : Option (Nat × HandlerId)) (left : Nat) (device : Fin n) (frame : Frame) : List (Happening n) :=
  ((List.range ((goal.map Prod.fst).getD (left - 1))).map fun hops =>
    .sent (Ring.ahead device hops) (frame.withTtl (UInt8.ofNat (left - 1 - hops)))) ++
  (goal.map fun (hops, handler) =>
    .handed (Ring.ahead device hops) handler (frame.withTtl (UInt8.ofNat (left - hops)))).toList

theorem course_here {left : Nat} {frame : Frame} (device : Fin n) (handler : HandlerId)
    (budget : frame.ttl.toNat = left) : course (some (0, handler)) left device frame = [.handed device handler frame] := by
  have whole := frame.withTtl_ttl
  rw [budget] at whole
  simp only [course, Option.getD_some, List.range_zero, List.map_nil, List.nil_append, Option.map_some,
    Option.toList_some, Ring.ahead_zero, Nat.sub_zero, whole]

theorem course_onward {left : Nat} {frame : Frame} (device : Fin n) (budget : frame.ttl.toNat = left + 2)
    (goal : Option (Nat × HandlerId)) :
    let passed := frame.withTtl (frame.ttl - 1)
    course (goal.map (Prod.map Nat.succ id)) (left + 2) device frame =
      .sent device passed :: course goal (left + 1) (Ring.next device) passed := by
  intro passed
  have whole := passed.withTtl_ttl
  rw [Frame.toNat_ttl_spent budget] at whole
  have count : ((goal.map (Prod.map Nat.succ id)).map Prod.fst).getD (left + 1) =
      (goal.map Prod.fst).getD left + 1 := by
    cases goal <;> rfl
  have same (ttl : UInt8) : passed.withTtl ttl = frame.withTtl ttl := rfl
  have less (hops : Nat) : left + 2 - (hops + 1) = left + 1 - hops := Nat.add_sub_add_right (left + 1) 1 hops
  have fewer (hops : Nat) : left + 1 - (hops + 1) = left - hops := Nat.add_sub_add_right left 1 hops
  rw [course, course, Nat.add_succ_sub_one, Nat.add_succ_sub_one, count, List.range_succ_eq_map, List.map_cons,
    List.map_map, Ring.ahead_zero, Nat.sub_zero, ← same, whole, Option.map_map, List.cons_append]
  simp only [Function.comp_def, Ring.ahead_next, Nat.succ_eq_add_one, Nat.add_zero, less, fewer, same, Prod.map, id_eq]

theorem passage_eq {left : Nat} {frame : Frame} (device : Fin n) (budget : frame.ttl.toNat = left) :
    placement.passage left device frame =
      course (placement.nearest? frame.destination left device) left device frame := by
  induction left generalizing device frame with
  | zero => rfl
  | succ left ih =>
    rw [passage]
    cases here : placement.node? frame.destination device with
    | some handler =>
      rw [nearest?_here here]
      exact (course_here device handler budget).symm
    | none =>
      rw [nearest?_onward here]
      cases left with
      | zero => rfl
      | succ left =>
        rw [if_neg (Nat.succ_ne_zero left), course_onward device budget]
        dsimp only
        rw [ih (Ring.next device) (Frame.toNat_ttl_spent budget)]
        rfl

end Placement

namespace Journey

variable {n : Nat} (placement : Placement n) (journey : Journey n)

/-- Everything that is to happen to the message, hop by hop. -/
def itinerary : List (Happening n) :=
  match placement.node? journey.frame.destination journey.start with
  | some handler => [.handed journey.start handler journey.frame]
  | none =>
    .sent journey.start journey.frame ::
      placement.passage journey.frame.ttl.toNat (Ring.next journey.start) journey.frame

theorem sent_course (goal : Option (Nat × HandlerId)) :
    .sent journey.start journey.frame ::
        Placement.course goal journey.frame.ttl.toNat (Ring.next journey.start) journey.frame =
      ((List.range ((goal.map Prod.fst).getD (journey.frame.ttl.toNat - 1) + 1)).map fun hops =>
        .sent (Ring.ahead journey.start hops)
          (journey.frame.withTtl (UInt8.ofNat (journey.frame.ttl.toNat - hops)))) ++
      (goal.map fun (hops, handler) =>
        .handed (Ring.ahead journey.start (hops + 1)) handler
          (journey.frame.withTtl (UInt8.ofNat (journey.frame.ttl.toNat - hops)))).toList := by
  have less (hops : Nat) : journey.frame.ttl.toNat - 1 - hops = journey.frame.ttl.toNat - (hops + 1) := by omega
  rw [List.range_succ_eq_map, List.map_cons, List.map_map, Ring.ahead_zero, Nat.sub_zero, Frame.withTtl_ttl,
    Placement.course, List.cons_append]
  simp only [Function.comp_def, Ring.ahead_next, Nat.succ_eq_add_one, less]

theorem ttl_pos : 0 < journey.frame.ttl.toNat := by
  apply Nat.pos_of_ne_zero
  intro spent
  exact journey.fresh (UInt8.toNat_inj.mp spent)

/-- A handler that is not among the first round of hops is not ahead at all. -/
theorem absent_of_goal_eq_none (nowhere : journey.goal placement = none) (hops : Nat) :
    placement.node? journey.frame.destination (Ring.ahead journey.start hops) = none := by
  have inside : hops % n < n := Nat.mod_lt _ (Nat.zero_lt_of_lt journey.start.isLt)
  have absent := Placement.nearest?_eq_none.mp nowhere (hops % n) inside
  rwa [Ring.ahead_mod] at absent

theorem itinerary_eq_fate : journey.itinerary placement = journey.fate placement := by
  let ttl := journey.frame.ttl.toNat
  let address := journey.frame.destination
  have positive : 0 < ttl := journey.ttl_pos
  have onward : placement.passage ttl (Ring.next journey.start) journey.frame =
      Placement.course (placement.nearest? address ttl (Ring.next journey.start)) ttl (Ring.next journey.start)
        journey.frame := placement.passage_eq (Ring.next journey.start) rfl
  -- a budget that ends before the nearest node is used up as if there were none
  cases aim : journey.goal placement with
  | none =>
    have absent := journey.absent_of_goal_eq_none placement aim
    have never : placement.nearest? address ttl (Ring.next journey.start) = none := by
      apply Placement.nearest?_eq_none.mpr
      intro hops _
      rw [Ring.ahead_next]
      exact absent (hops + 1)
    have away : placement.node? address journey.start = none := by
      rw [← Ring.ahead_zero journey.start]
      exact absent 0
    rw [itinerary, away, onward, never, sent_course, fate, transmissions, handover, aim]
    dsimp only
    rw [Option.map_none, Option.getD_none, Nat.sub_add_cancel positive]
    rfl
  | some found =>
    obtain ⟨hops, handler⟩ := found
    obtain ⟨_, here, before⟩ := Placement.nearest?_eq_some.mp aim
    cases hops with
    | zero =>
      rw [Ring.ahead_zero] at here
      rw [itinerary, here, fate, transmissions, handover, aim]
      rfl
    | succ hops =>
      have away : placement.node? address journey.start = none := by
        rw [← Ring.ahead_zero journey.start]
        exact before 0 (Nat.succ_pos hops)
      rw [itinerary, away, onward, fate, transmissions, handover, aim]
      dsimp only
      rw [if_neg (Nat.succ_ne_zero hops)]
      by_cases reached : hops + 1 ≤ ttl
      · have found : placement.nearest? address ttl (Ring.next journey.start) = some (hops, handler) := by
          apply Placement.nearest?_eq_some.mpr
          simp only [Ring.ahead_next]
          exact ⟨reached, here, fun earlier less => before (earlier + 1) (Nat.succ_lt_succ less)⟩
        have left : ttl - hops = ttl - (hops + 1) + 1 := by omega
        rw [found, sent_course, if_pos reached, Nat.min_eq_left reached]
        simp only [Option.getD_some, Option.map_some]
        rw [show journey.frame.ttl.toNat - hops = _ from left]
      · have never : placement.nearest? address ttl (Ring.next journey.start) = none := by
          apply Placement.nearest?_eq_none.mpr
          intro earlier inside
          rw [Ring.ahead_next]
          exact before (earlier + 1) (by omega)
        rw [never, sent_course, if_neg reached, Nat.min_eq_right (Nat.le_of_not_le reached), Option.map_none,
          Option.getD_none, Nat.sub_add_cancel positive]
        rfl

/-- Sent twice, and handed with one hop of two used up to the first of the handlers at the address. -/
example :
    let registry : Registry := ⟨[⟨6, 0⟩, ⟨7, 4⟩, ⟨7, 1⟩]⟩
    let placement : Placement 3 := fun device => if device = 2 then registry else .empty
    let message : Message := { destination := 7, source := 1, flags := .none, ttl := 2, payload := [5] }
    let frame : Frame := { message with payload_le := by decide }
    let journey : Journey 3 := { start := 0, frame, fresh := by decide }
    journey.fate placement = [.sent 0 frame, .sent 1 (frame.withTtl 1), .handed 2 4 (frame.withTtl 1)] := by
  decide

end Journey

end Hopline

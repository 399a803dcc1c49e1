import Hopline.Proofs.Ring.Crossing

/-! One message in a ring that is pumped. The devices take their turns in the order in which they stand,
so the message goes as far as the last device in one step and starts over at the first in the next. -/

namespace Hopline.Journey

open Hopline.Ring

variable {n : Nat} {placement : Placement n} {journey : Journey n} {hops nearest : Nat} {handler : HandlerId} {ring : Ring n}

variable (placement journey) in
/-- How far the message has come in a step, when so many devices have had their turn. It waits for the turn of the
next device, and from then on every turn takes it one hop on. -/
def reach (hops turns : Nat) : Nat :=
  min (hops + (turns - (ahead journey.start (hops + 1)).val)) (journey.transmissions placement)

theorem Reached.turn (found : journey.goal placement = some (nearest, handler)) (within : hops ≤ journey.transmissions placement)
    {place : Nat} (inside : place < n) (reached : journey.Reached placement (journey.reach placement hops place) ring) :
    journey.Reached placement (journey.reach placement hops (place + 1)) (ring.listen ⟨place, inside⟩) := by
  have bounds := transmissions_eq found
  rcases Nat.lt_or_ge place (ahead journey.start (hops + 1)).val with early | due
  · have waiting : journey.reach placement hops place = hops := by
      unfold reach
      omega
    have still : journey.reach placement hops (place + 1) = hops := by
      unfold reach
      omega
    rw [waiting] at reached
    have elsewhere : (⟨place, inside⟩ : Fin n) ≠ ahead journey.start (hops + 1) :=
      fun same => Nat.ne_of_lt early (congrArg Fin.val same)
    rw [reached.listen_elsewhere elsewhere, still]
    exact reached
  · rcases Nat.lt_or_ge (journey.reach placement hops place) (journey.transmissions placement) with further | ended
    · have here : journey.reach placement hops place = hops + (place - (ahead journey.start (hops + 1)).val) := by
        unfold reach at further ⊢
        omega
      have next : journey.reach placement hops (place + 1) = journey.reach placement hops place + 1 := by
        unfold reach at further ⊢
        omega
      have device : ⟨place, inside⟩ = ahead journey.start (journey.reach placement hops place + 1) := by
        rw [here, Nat.add_right_comm]
        exact (ahead_of_due due inside).symm
      rw [next, device]
      apply reached.onward found
      · omega
      · omega
    · have stopped : journey.reach placement hops place = journey.transmissions placement :=
        Nat.le_antisymm (Nat.min_le_right _ _) ended
      have same : journey.reach placement hops (place + 1) = journey.transmissions placement := by
        unfold reach at stopped ⊢
        omega
      rw [stopped] at reached
      rw [reached.listen_ended (carried_last found), same]
      exact reached

theorem Reached.turns (found : journey.goal placement = some (nearest, handler)) (within : hops ≤ journey.transmissions placement)
    (reached : journey.Reached placement hops ring) {count : Nat} (inside : count ≤ n) :
    journey.Reached placement (journey.reach placement hops count) (((List.finRange n).take count).foldl listen ring) := by
  induction count with
  | zero =>
    have start : journey.reach placement hops 0 = hops := by
      unfold reach
      omega
    rw [start]
    exact reached
  | succ count ih =>
    have present : count < (List.finRange n).length := by
      rw [List.length_finRange]
      exact inside
    have device : (List.finRange n)[count] = ⟨count, inside⟩ := List.getElem_finRange _
    rw [List.take_succ_eq_append_getElem present, List.foldl_append, device]
    exact (ih (Nat.le_of_lt inside)).turn found within inside

variable (placement journey) in
/-- How far the message has come after some steps. -/
def progress : Nat → Nat
  | 0 => 0
  | steps + 1 => journey.reach placement (progress steps) n

theorem progress_le (steps : Nat) : journey.progress placement steps ≤ journey.transmissions placement := by
  cases steps with
  | zero => exact Nat.zero_le _
  | succ steps => exact Nat.min_le_right _ _

theorem reached_rounds (found : journey.goal placement = some (nearest, handler)) (steps : Nat) :
    journey.Reached placement (journey.progress placement steps)
      (Ring.round^[steps] (placement.ring.signal journey.start journey.frame.toMessage).1) := by
  induction steps with
  | zero => exact reached_signal placement journey
  | succ steps ih =>
    have turns := ih.turns found (progress_le steps) (Nat.le_refl n)
    rw [List.take_of_length_le (List.length_finRange).le] at turns
    rw [Function.iterate_succ_apply']
    exact turns

theorem progress_settled {steps : Nat} (there : journey.progress placement steps = journey.transmissions placement) :
    journey.progress placement (steps + 1) = journey.transmissions placement := by
  rw [progress, there]
  exact Nat.min_eq_right (Nat.le_add_right _ _)

theorem progress_one : journey.progress placement 1 =
    min (n - (journey.start.val + 1) % n) (journey.transmissions placement) := by
  rw [progress, progress, reach, Nat.zero_add]
  rfl

/-- The bytes go from the last device to the first after others have had their turn before it. -/
def Wraps (placement : Placement n) (journey : Journey n) : Prop :=
  journey.start.val + 1 < n ∧ n ≤ journey.start.val + journey.transmissions placement

instance (placement : Placement n) (journey : Journey n) : Decidable (journey.Wraps placement) :=
  inferInstanceAs (Decidable (_ ∧ _))

theorem progress_of_wraps (found : journey.goal placement = some (nearest, handler)) (wraps : journey.Wraps placement) :
    journey.progress placement 1 < journey.transmissions placement ∧
      journey.progress placement 1 ≠ 0 ∧ journey.progress placement 2 = journey.transmissions placement := by
  obtain ⟨inside, around⟩ := wraps
  have near := transmissions_lt found
  have first : journey.progress placement 1 = n - (journey.start.val + 1) := by
    rw [progress_one, Nat.mod_eq_of_lt inside]
    omega
  have again : (ahead journey.start (journey.progress placement 1 + 1)).val = 0 := by
    have whole : journey.start.val + (n - (journey.start.val + 1) + 1) = n := by omega
    show (journey.start.val + (journey.progress placement 1 + 1)) % n = 0
    rw [first, whole, Nat.mod_self]
  refine ⟨by omega, by omega, ?_⟩
  rw [progress, reach, again]
  apply Nat.min_eq_right
  omega

theorem progress_of_not_wraps (apart : ¬ journey.Wraps placement) (found : journey.goal placement = some (nearest, handler)) :
    journey.progress placement 1 = journey.transmissions placement := by
  have near := transmissions_lt found
  rw [progress_one]
  rcases Nat.lt_or_ge (journey.start.val + 1) n with inside | final
  · have short : ¬ n ≤ journey.start.val + journey.transmissions placement := fun around => apart ⟨inside, around⟩
    rw [Nat.mod_eq_of_lt inside]
    omega
  · have last : journey.start.val + 1 = n := Nat.le_antisymm journey.start.isLt final
    rw [last, Nat.mod_self]
    omega

/-- The steps until the ring rests, the idle one included. -/
def steps (placement : Placement n) (journey : Journey n) : Nat :=
  if journey.transmissions placement = 0 then 1 else if journey.Wraps placement then 3 else 2

variable {scheduler : Scheduler (Ring n)}

theorem rests_of_progress (eager : scheduler.Eager) (listeners : scheduler.units = (List.finRange n).map listener)
    (found : journey.goal placement = some (nearest, handler)) {last : Nat}
    (busy : ∀ earlier < last, journey.progress placement earlier ≠ journey.progress placement (earlier + 1))
    (still : journey.progress placement (last + 1) = journey.progress placement last) :
    RestsAfter scheduler (placement.ring.signal journey.start journey.frame.toMessage).1 (last + 1) := by
  let started := (placement.ring.signal journey.start journey.frame.toMessage).1
  have moved (steps : Nat) : (stepped scheduler started steps).2.moved =
      journey.progress placement steps * journey.frame.wireSize := by
    rw [stepped_rounds eager listeners]
    exact (reached_rounds found steps).moved
  have some : 0 < journey.frame.wireSize := Nat.le_add_left _ _
  constructor
  case busy =>
    intro earlier before
    rw [moved, moved]
    intro same
    exact busy earlier (Nat.lt_of_succ_lt_succ before) (Nat.eq_of_mul_eq_mul_right some same).symm
  case still =>
    refine ⟨last, rfl, ?_⟩
    rw [moved, moved, still]

/-- The ring rests after one step if nothing was sent, after two if the message came as far as it could in the first,
and after three if it had to go on at the first device. -/
theorem rests (eager : scheduler.Eager) (listeners : scheduler.units = (List.finRange n).map listener)
    (found : journey.goal placement = some (nearest, handler)) :
    RestsAfter scheduler (placement.ring.signal journey.start journey.frame.toMessage).1 (journey.steps placement) ∧
      journey.progress placement (journey.steps placement) = journey.transmissions placement := by
  have start : journey.progress placement 0 = 0 := rfl
  by_cases home : journey.transmissions placement = 0
  · have still : journey.progress placement 1 = journey.transmissions placement :=
      progress_settled (start.trans home.symm)
    rw [steps, if_pos home]
    refine ⟨rests_of_progress eager listeners found (fun _ before => absurd before (Nat.not_lt_zero _)) ?_, still⟩
    rw [still, home]
    rfl
  · by_cases wraps : journey.Wraps placement
    · obtain ⟨short, some, second⟩ := progress_of_wraps found wraps
      have third := progress_settled second
      rw [steps, if_neg home, if_pos wraps]
      refine ⟨rests_of_progress eager listeners found ?_ (third.trans second.symm), third⟩
      intro earlier before
      match earlier, before with
      | 0, _ => exact some.symm
      | 1, _ => exact Nat.ne_of_lt (second ▸ short)
    · have first := progress_of_not_wraps wraps found
      have second := progress_settled first
      rw [steps, if_neg home, if_neg wraps]
      refine ⟨rests_of_progress eager listeners found ?_ (second.trans first.symm), second⟩
      intro earlier before
      match earlier, before with
      | 0, _ => exact fun same => home (first.symm.trans same.symm)

end Hopline.Journey

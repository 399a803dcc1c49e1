import Hopline.Schedule.Scripted

/-! What a call of a scripted module does to the parts: its own may have an answer less, and nothing else changes. -/

namespace Hopline.Schedule.Rehearsal

variable {world : Rehearsal} {id other : ModuleId}

theorem parts_logged (world : Rehearsal) (part : Part) (entry : String → String) :
    (world.logged part entry).parts = world.parts := by
  unfold logged
  split <;> rfl

theorem period_answer (part : Part) : (answer part).1.period = part.period := by
  unfold answer
  split <;> rfl

theorem parts_pollPart (id : ModuleId) (world : Rehearsal) : (pollPart id world).parts = world.parts := by
  unfold pollPart
  split
  next => rfl
  next => exact parts_logged _ _ _

theorem parts_bringUp (id : ModuleId) (world : Rehearsal) :
    (bringUp id world).1.parts = world.parts.modify id fun part => (answer part).1 := by
  unfold bringUp
  split
  next missing => rw [List.modify_eq_self (List.getElem?_eq_none_iff.mp missing)]
  next part found =>
    rw [List.modify_eq_set, found]
    exact parts_logged _ _ _

theorem parts_bringUp_of_ne (apart : other ≠ id) : (bringUp id world).1.parts[other]? = world.parts[other]? := by
  rw [parts_bringUp, List.getElem?_modify_ne _ _ (Ne.symm apart)]

theorem period_bringUp (id other : ModuleId) (world : Rehearsal) :
    (bringUp id world).1.parts[other]?.map Part.period = world.parts[other]?.map Part.period := by
  by_cases same : other = id
  · subst same
    rw [parts_bringUp, List.getElem?_modify_eq]
    cases world.parts[other]? with
    | none => rfl
    | some part => exact congrArg some (period_answer part)
  · rw [parts_bringUp_of_ne same]

theorem answer_bringUp (id : ModuleId) (world : Rehearsal) :
    (bringUp id world).2 = (world.parts[id]?.map fun part => (answer part).2).getD true := by
  unfold bringUp
  split
  next missing => rw [missing]; rfl
  next part found => rw [found]; rfl

end Hopline.Schedule.Rehearsal

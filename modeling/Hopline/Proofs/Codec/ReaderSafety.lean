import Hopline.Proofs.Codec.ReaderBounds

/-! What a script can do to the variables that it reads into, whatever its operations and however they
fail. A read that fails leaves its variable and the cursor as they were. The one exception is a string
that its destination cuts short. After the first fault no variable changes and no hook is asked. -/

namespace Hopline.Codec.Reader

/-- What a failed operation leaves of a variable and of the position. -/
inductive Fails (before after : Reader) (value : Option Value) : ReadStep → Prop
  | untouched {step : ReadStep} (kept : ∀ held : Value, held.overwrite value = held)
      (position : after.position = before.position) (other : after.fault ≠ some .bufferOverflow) :
      Fails before after value step
  /-- The destination is filled to its end with as much of the text as fits, and a zero byte. -/
  | cutShort {size limit : Nat} {text rest : Bytes} (found : before.rest = text ++ 0 :: rest)
      (solid : ∀ byte ∈ text, byte ≠ 0) (sized : 0 < size) (small : size ≤ limited text.length limit)
      (destination : ∀ held : Bytes, held.length = size →
        (Value.bytes held).overwrite value = .bytes (text.take (size - 1) ++ [0]))
      (position : after.position = before.position + text.length + 1)
      (fault : after.fault = some .bufferOverflow) : Fails before after value (.string size limit)

/-- The spans that validation hooks are shown along a script. -/
def shown (reader : Reader) : List ReadStep → List Bytes
  | [] => []
  | .validate hook :: rest => reader.validatedSpan?.toList ++ (reader.validate hook).shown rest
  | step :: rest => (reader.perform step).1.shown rest

variable {reader : Reader}

theorem fails_perform (valid : reader.Valid) {step : ReadStep} (sound : reader.fault = none)
    (failed : (reader.perform step).1.fault ≠ none) :
    Fails reader (reader.perform step).1 (reader.perform step).2 step := by
  rcases ends_perform valid step with ends | ⟨size, limit, after, text, rest, rfl, cut, same⟩
  · generalize reader.perform step = result at ends failed
    cases ends with
    | moves value _ _ _ sound => exact absurd sound failed
    | stays stays => exact .untouched (fun held => rfl) stays.position (stays.other sound)
  · rw [same]
    refine .cutShort cut.found cut.solid cut.sized cut.small ?_ cut.position cut.fault
    intro held length
    have bound := limited_le text.length limit
    have sized := cut.sized
    have small := cut.small
    have full : (text.take (size - 1) ++ [0]).length = size := by
      rw [List.length_append, List.length_take_of_le (by omega), List.length_singleton]
      omega
    have covered : held.drop (text.take (size - 1) ++ [0]).length = [] := List.drop_eq_nil_of_le (by omega)
    simp only [Value.overwrite, covered, List.append_nil]

theorem stuck_perform (valid : reader.Valid) {fault : Fault} (failed : reader.fault = some fault) (step : ReadStep) :
    (reader.perform step).1.fault = some fault ∧ (reader.perform step).1.position = reader.position ∧
      (reader.perform step).2 = none := by
  rcases ends_perform valid step with ends | ⟨size, limit, after, text, rest, rfl, cut, same⟩
  · generalize reader.perform step = result at ends
    cases ends with
    | moves value _ _ early => exact absurd (early.symm.trans failed) nofun
    | stays stays => exact ⟨stays.first fault failed, stays.position, rfl⟩
  · exact absurd (cut.early.symm.trans failed) nofun

theorem stuck_run (valid : reader.Valid) {fault : Fault} (failed : reader.fault = some fault) (script : List ReadStep) :
    (reader.run script).1.fault = some fault ∧ (reader.run script).1.position = reader.position ∧
      (reader.run script).2 = script.map fun _ => none := by
  induction script generalizing reader with
  | nil => exact ⟨failed, rfl, rfl⟩
  | cons step rest ih =>
    obtain ⟨still, position, nothing⟩ := stuck_perform valid failed step
    obtain ⟨still', position', nothing'⟩ := ih (stands_perform valid step).1 still
    exact ⟨still', position'.trans position, congrArg₂ List.cons nothing nothing'⟩

theorem shown_of_fault (valid : reader.Valid) {fault : Fault} (failed : reader.fault = some fault)
    (script : List ReadStep) : reader.shown script = [] := by
  induction script generalizing reader with
  | nil => rfl
  | cons step rest ih =>
    have later := ih (stands_perform valid step).1 (stuck_perform valid failed step).1
    cases step with
    | validate hook =>
      have unasked : reader.validatedSpan? = none := by simp [validatedSpan?, failed]
      rw [shown, unasked]
      exact later
    | _ => exact later

theorem zipWith_overwrite_none (held : List Value) (script : List ReadStep) (length : held.length = script.length) :
    List.zipWith Value.overwrite held (script.map fun _ => none) = held := by
  induction held generalizing script with
  | nil => rfl
  | cons first rest ih =>
    cases script with
    | nil => cases length
    | cons step script => exact congrArg (first :: ·) (ih script (Nat.succ.inj length))

/-- A hook matters only through its answer on the span that it is shown. -/
theorem validate_congr {first second : Validator}
    (agree : ∀ span, reader.validatedSpan? = some span → first span = second span) :
    reader.validate first = reader.validate second := by
  cases known : reader.fault with
  | some fault => simp [validate, align, known]
  | none =>
    have same : first reader.consumed = second reader.consumed := agree reader.consumed (by simp [validatedSpan?, known])
    rw [validate_of_sound known, validate_of_sound known, same]

/-- What holds of a cursor that some script has brought where it is. -/
structure Guarded (input : Bytes) (script : List ReadStep) (reader : Reader) : Prop where
  captured : reader.input = input
  inside : reader.position ≤ input.length
  partly : reader.staged < 8
  /-- No index, subtraction or shift on the way went out of range. -/
  inRange : ((ofInput input).run? script).map Prod.fst = some reader
  failing : ∀ step, reader.fault = none → (reader.perform step).1.fault ≠ none →
    Fails reader (reader.perform step).1 (reader.perform step).2 step
  /-- A destination that is too small for a string takes what fits of it. -/
  tooSmall : ∀ size limit text rest, reader.fault = none → reader.rest = text ++ 0 :: rest →
    (∀ byte ∈ text, byte ≠ 0) → 0 < size → size ≤ limited text.length limit →
    let read := reader.perform (.string size limit)
    read.2 = some (.bytes (text.take (size - 1) ++ [0])) ∧ read.1.position = reader.position + text.length + 1 ∧
      read.1.fault = some .bufferOverflow
  /-- After a fault nothing moves any more, and no variable that is read into changes. -/
  stuck : ∀ fault, reader.fault = some fault → ∀ later,
    (reader.run later).1.fault = some fault ∧ (reader.run later).1.position = reader.position ∧
    (∀ held : List Value, held.length = later.length →
      List.zipWith Value.overwrite held (reader.run later).2 = held) ∧
    reader.shown later = [] ∧ (reader.run later).1.finish.2 = .error fault ∧
    (reader.run later).1.status = .error fault

/-- Any script of operations leaves a cursor over any input guarded. Finishing is one of the operations,
as it does to the cursor what aligning does. -/
theorem script_guarded (input : Bytes) (script : List ReadStep) :
    Guarded input script ((ofInput input).run script).1 ∧
    (∀ reader : Reader, reader.finish.1 = (reader.perform .align).1) ∧
    ∀ (reader : Reader) (first second : Validator),
      (∀ span, reader.validatedSpan? = some span → first span = second span) →
      reader.validate first = reader.validate second := by
  have start := valid_ofInput input
  obtain ⟨valid, same⟩ := stands_run start script
  have same : ((ofInput input).run script).1.input = input := same
  refine ⟨?_, fun reader => rfl, fun reader first second => validate_congr⟩
  constructor
  case captured => exact same
  case inside => exact valid.inside.trans_eq (congrArg List.length same)
  case partly => exact valid.partly
  case inRange => rw [run?_eq start script, Option.map_some]
  case failing => exact fun step sound failed => fails_perform valid sound failed
  case tooSmall =>
    intro size limit text rest early found solid sized small
    obtain ⟨after, read, cut⟩ := cutShort_readString valid early solid found sized small
    rw [perform, read]
    exact ⟨rfl, cut.position, cut.fault⟩
  case stuck =>
    intro fault failed later
    obtain ⟨still, position, nothing⟩ := stuck_run valid failed later
    refine ⟨still, position, ?_, shown_of_fault valid failed later, ?_, ?_⟩
    · intro held length
      rw [nothing]
      exact zipWith_overwrite_none held later length
    · simp only [finish, outcome, align, still]
    · simp only [status, still]

end Hopline.Codec.Reader

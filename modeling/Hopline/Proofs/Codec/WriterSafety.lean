import Hopline.Proofs.Codec.Capacity
import Hopline.Proofs.Codec.WriterBounds

/-! What a script can do to a region, whatever its operations and however they fail. The cursor stays
within the region, and what lies past the furthest place that it has reached is left alone. A field
that does not fit leaves nothing of itself, and after the first fault nothing moves any more. -/

namespace Hopline.Codec

/-- The fields that are laid down as a whole or not at all. -/
def WriteStep.IsWhole : WriteStep → Prop
  | .unsigned8 _ | .unsigned16 _ | .unsigned32 _ | .signed8 _ | .signed16 _ | .signed32 _ | .bytes _ => True
  | _ => False

namespace Writer

/-- The furthest place that a step takes the cursor to. A seek commits what is staged before it
moves, so it may reach further than the cursor stands before it and after it. -/
def reach (writer : Writer) : WriteStep → Nat
  | .seek delta => max writer.flush.position (writer.seek delta).position
  | step => (writer.perform step).position

/-- The furthest place that a script takes the cursor to. -/
def furthest (writer : Writer) : List WriteStep → Nat
  | [] => writer.position
  | step :: rest => max (writer.reach step) ((writer.perform step).furthest rest)

/-- The spans that signing hooks are shown along a script. -/
def shown (writer : Writer) : List WriteStep → List Bytes
  | [] => []
  | .sign hook :: rest => writer.signedSpan?.toList ++ (writer.sign hook).shown rest
  | step :: rest => (writer.perform step).shown rest

/-- At most the byte that was staged has been committed. -/
inductive CommitsStage (before after : Writer) : Prop
  | nothing (destination : after.destination = before.destination) (position : after.position = before.position)
  | staged (waiting : 0 < before.staged)
      (destination : after.destination = before.destination.place before.position [before.stage])
      (position : after.position = before.position + 1)

def Advances (before after : Writer) : Prop :=
  ∃ count, after.position = before.position + count ∧ after.ahead = before.ahead.drop count

variable {writer : Writer} {action : Writer → Writer}

theorem Advances.refl (writer : Writer) : Advances writer writer := ⟨0, rfl, rfl⟩

theorem Advances.trans {middle after : Writer} (earlier : Advances writer middle) (later : Advances middle after) :
    Advances writer after := by
  obtain ⟨passed, position, ahead⟩ := earlier
  obtain ⟨further, position', ahead'⟩ := later
  refine ⟨passed + further, ?_, ?_⟩
  · rw [position', position, Nat.add_assoc]
  · rw [ahead', ahead, List.drop_drop]

theorem advances_store (placed : writer.Placed) (field : Bytes) : Advances writer (writer.store field) :=
  ⟨field.length, rfl, ahead_store placed field⟩

theorem advances_align (placed : writer.Placed) : Advances writer writer.align := by
  unfold align
  split
  · exact .refl writer
  · dsimp only
    split
    · exact .refl writer
    · have cleared : Placed { writer with stage := 0, staged := 0 } := ⟨placed.inside, placed.counted⟩
      exact advances_store cleared _

theorem advances_flush (placed : writer.Placed) : Advances writer writer.flush := by
  unfold flush
  split
  · exact .refl writer
  · exact advances_align placed

theorem advances_aligned (valid : writer.Valid) (acts : ∀ ready : Writer, ready.Valid → Advances ready (action ready)) :
    Advances writer (writer.aligned action) := by
  have ready := (keeps_align valid.toPlaced valid.clean).valid
  have moved := advances_align valid.toPlaced
  unfold aligned
  dsimp only
  split
  · exact .refl writer
  · split
    · exact moved
    · exact moved.trans (acts _ ready)

theorem advances_put (valid : writer.Valid) (field : Bytes) : Advances writer (writer.put field) := by
  apply advances_aligned valid
  intro ready valid
  split
  · exact .refl ready
  · exact advances_store valid.toPlaced field

theorem advances_writeString (valid : writer.Valid) (text : Bytes) (limit : Nat) :
    Advances writer (writer.writeString text limit) := by
  apply advances_aligned valid
  intro ready valid
  dsimp only
  split
  · exact .refl ready
  · have stored := advances_store valid.toPlaced ((textField text limit).take (ready.remaining - 1) ++ [0])
    split <;> exact stored

theorem advances_stageBits (valid : writer.Valid) (bits : List Bool) : Advances writer (writer.stageBits bits) := by
  induction bits generalizing writer with
  | nil => exact .refl writer
  | cons bit rest ih =>
    unfold stageBits
    split
    · exact .refl writer
    · have first : Advances writer (writer.stageBit bit) := by
        unfold stageBit
        dsimp only
        split
        · exact advances_align ⟨valid.inside, valid.counted⟩
        · exact .refl writer
      exact first.trans (ih (keeps_stageBit valid bit).valid)

theorem advances_writeBits (valid : writer.Valid) (value : UInt8) (width : Nat) :
    Advances writer (writer.writeBits value width) := by
  unfold writeBits
  split
  · exact .refl writer
  · split
    · exact .refl writer
    · exact advances_stageBits valid _

/-- A hook rewrites what is behind the cursor only. -/
theorem advances_sign (valid : writer.Valid) (hook : Signer) : Advances writer (writer.sign hook) := by
  apply advances_aligned valid
  intro ready valid
  split
  · exact .refl ready
  next bytes region =>
    have inside : ready.position ≤ bytes.length := by
      simpa only [capacity, region, Destination.capacity] using valid.inside
    have length : (hook.run (bytes.take ready.position)).1.length = ready.position := by
      rw [hook.length_run, List.length_take_of_le inside]
    have ahead : ((hook.run (bytes.take ready.position)).1 ++ bytes.drop ready.position).drop ready.position =
        bytes.drop ready.position := List.drop_left' length
    have patched : Advances ready { ready with
        destination := .region ((hook.run (bytes.take ready.position)).1 ++ bytes.drop ready.position) } := by
      refine ⟨0, rfl, ?_⟩
      simpa only [Writer.ahead, region, List.drop_zero] using ahead
    dsimp only
    split <;> exact patched

theorem length_contents_of_region (region : writer.inRegion = true) :
    writer.destination.contents.length = writer.capacity := by
  unfold inRegion at region
  unfold capacity
  cases kind : writer.destination with
  | region bytes => rfl
  | sink emitted =>
    rw [kind] at region
    cases region

theorem drop_contents (placed : writer.Placed) {place : Nat} (past : writer.position ≤ place) :
    writer.destination.contents.drop place = writer.ahead.drop (place - writer.position) := by
  rw [contents_eq, List.drop_append, placed.counted, List.drop_eq_nil_of_le (placed.counted.trans_le past),
    List.nil_append]

theorem Advances.beyond {after : Writer} (moved : Advances writer after) (placed : writer.Placed)
    (placed' : after.Placed) {place : Nat} (past : after.position ≤ place) :
    after.destination.contents.drop place = writer.destination.contents.drop place := by
  obtain ⟨count, position, ahead⟩ := moved
  rw [drop_contents placed' past, drop_contents placed (by omega), ahead, List.drop_drop]
  congr 1
  omega

theorem contents_seek (writer : Writer) (delta : Int) :
    (writer.seek delta).destination.contents = writer.flush.destination.contents := by
  unfold seek aligned flush
  dsimp only
  split
  · rfl
  · split
    · rfl
    · split
      · split <;> rfl
      · rfl

theorem beyond_perform (valid : writer.Valid) (step : WriteStep) {place : Nat} (past : writer.reach step ≤ place) :
    (writer.perform step).destination.contents.drop place = writer.destination.contents.drop place := by
  have placed' := (keeps_perform valid step).valid.toPlaced
  have onward (moved : Advances writer (writer.perform step)) (past : (writer.perform step).position ≤ place) :
      (writer.perform step).destination.contents.drop place = writer.destination.contents.drop place :=
    moved.beyond valid.toPlaced placed' past
  cases step with
  | unsigned8 | unsigned16 | unsigned32 | signed8 | signed16 | signed32 | bytes =>
    exact onward (advances_put valid _) past
  | string text limit => exact onward (advances_writeString valid text limit) past
  | bit value => exact onward (advances_writeBits valid _ 1) past
  | bits value width => exact onward (advances_writeBits valid value width) past
  | flush => exact onward (advances_flush valid.toPlaced) past
  | sign hook => exact onward (advances_sign valid hook) past
  | flip | order next => rfl
  | seek delta =>
    -- what is staged is committed where the cursor stood, wherever it goes from there
    rw [perform, contents_seek]
    exact (advances_flush valid.toPlaced).beyond valid.toPlaced (keeps_flush valid).valid.toPlaced
      (le_of_max_le_left past)

theorem beyond_run (valid : writer.Valid) (script : List WriteStep) {place : Nat}
    (past : writer.furthest script ≤ place) :
    (writer.run script).destination.contents.drop place = writer.destination.contents.drop place := by
  induction script generalizing writer with
  | nil => rfl
  | cons step rest ih =>
    have later := ih (keeps_perform valid step).valid (le_of_max_le_right past)
    exact later.trans (beyond_perform valid step (le_of_max_le_left past))

/-- Committing what is staged lays down the staged byte at most, and overflows if at all. -/
theorem commits_align (sound : writer.fault = none) :
    CommitsStage writer writer.align ∧ (writer.align.fault = none ∨ writer.align.fault = some .bufferOverflow) := by
  unfold align
  split
  next => exact ⟨.nothing rfl rfl, .inl sound⟩
  next waiting =>
    dsimp only
    split
    · exact ⟨.nothing rfl rfl, .inr (by simp only [fail, sound, Option.none_or])⟩
    · exact ⟨.staged (Nat.pos_of_ne_zero waiting) rfl rfl, .inl sound⟩

theorem commits_put (sound : writer.fault = none) {field : Bytes} (failed : (writer.put field).fault ≠ none) :
    (writer.put field).fault = some .bufferOverflow ∧ CommitsStage writer (writer.put field) := by
  obtain ⟨committed, aligned⟩ := commits_align sound
  unfold put Writer.aligned at failed ⊢
  simp only [sound, Option.isSome_none, Bool.false_eq_true, ↓reduceIte] at failed ⊢
  cases outcome : writer.align.fault with
  | some fault =>
    simp only [outcome, Option.isSome_some, ↓reduceIte, reduceCtorEq, false_or] at aligned ⊢
    exact ⟨aligned, committed⟩
  | none =>
    simp only [outcome, Option.isSome_none, Bool.false_eq_true, ↓reduceIte] at failed ⊢
    split at failed
    next short =>
      rw [if_pos short]
      refine ⟨by simp only [fail, outcome, Option.none_or], ?_⟩
      cases committed with
      | nothing destination position => exact .nothing destination position
      | staged waiting destination position => exact .staged waiting destination position
    next room => exact absurd outcome failed

theorem commits_perform (sound : writer.fault = none) {step : WriteStep} (whole : step.IsWhole)
    (failed : (writer.perform step).fault ≠ none) :
    (writer.perform step).fault = some .bufferOverflow ∧ CommitsStage writer (writer.perform step) := by
  cases step with
  | unsigned8 | unsigned16 | unsigned32 | signed8 | signed16 | signed32 | bytes => exact commits_put sound failed
  | string | bit | bits | flush | seek | flip | order | sign => exact whole.elim

/-- A hook matters only through what it makes of the span that it is shown. -/
theorem sign_congr {first second : Signer}
    (agree : ∀ span, writer.signedSpan? = some span → first.run span = second.run span) :
    writer.sign first = writer.sign second := by
  unfold sign aligned
  unfold signedSpan? flush at agree
  cases failed : writer.fault with
  | some fault => rfl
  | none =>
    simp only [failed, Option.isSome_none, Bool.false_eq_true, ↓reduceIte] at agree ⊢
    cases outcome : writer.align.fault with
    | some fault => rfl
    | none =>
      simp only [Option.isSome_none, Bool.false_eq_true, ↓reduceIte]
      cases kind : writer.align.destination with
      | sink emitted => rfl
      | region bytes =>
        have same := agree (bytes.take writer.align.position) (by rw [outcome, kind])
        simp only [same]

theorem signedSpan?_of_fault {fault : Fault} (failed : writer.fault = some fault) : writer.signedSpan? = none := by
  simp only [signedSpan?, fault_flush failed]

theorem shown_of_fault {fault : Fault} (failed : writer.fault = some fault) (script : List WriteStep) :
    writer.shown script = [] := by
  induction script generalizing writer with
  | nil => rfl
  | cons step rest ih =>
    have later := ih (fault_perform failed step)
    cases step with
    | sign hook =>
      rw [shown, signedSpan?_of_fault failed]
      exact later
    | _ => exact later

/-- What holds of a cursor that some script has brought where it is. -/
structure Guarded (region : Bytes) (script : List WriteStep) (writer : Writer) : Prop where
  inside : writer.position ≤ region.length
  partly : writer.staged < 8
  clean : writer.stage.toNat < 2 ^ writer.staged
  /-- No index, subtraction or shift on the way went out of range. -/
  inRange : (ofRegion region).run? script = some writer
  size : writer.destination.contents.length = region.length
  beyond : ∀ place, (ofRegion region).furthest script ≤ place →
    writer.destination.contents.drop place = region.drop place
  /-- A field that overflows stores nothing of its own. -/
  whole : ∀ step, WriteStep.IsWhole step → writer.fault = none → (writer.perform step).fault ≠ none →
    (writer.perform step).fault = some .bufferOverflow ∧ CommitsStage writer (writer.perform step)
  /-- Nothing happens any more after a fault but for changes of the byte order. -/
  stuck : ∀ fault, writer.fault = some fault → ∀ later,
    writer.run later = { writer with order := (writer.run later).order } ∧ writer.shown later = [] ∧
    (writer.run later).finish = (writer.run later, .error fault) ∧ (writer.run later).status = .error fault

/-- Any script of operations leaves a cursor over any region guarded. Finishing is one of the operations,
as it does to the cursor what a flush does. -/
theorem run_guarded (region : Bytes) (script : List WriteStep) :
    Guarded region script ((ofRegion region).run script) ∧
    (∀ writer : Writer, writer.finish.1 = writer.perform .flush) ∧
    ∀ (writer : Writer) (first second : Signer),
      (∀ span, writer.signedSpan? = some span → first.run span = second.run span) →
      writer.sign first = writer.sign second := by
  have start := valid_ofRegion region
  have kept := keeps_run start script
  have capacity : ((ofRegion region).run script).capacity = region.length := kept.capacity
  refine ⟨?_, fun writer => rfl, fun writer first second => sign_congr⟩
  constructor
  case inside => exact kept.valid.inside.trans_eq capacity
  case partly => exact kept.valid.partly
  case clean => exact kept.valid.clean
  case inRange => exact run?_eq start script
  case size => exact (length_contents_of_region kept.region).trans capacity
  case beyond => exact fun place past => beyond_run start script past
  case whole => exact fun step whole sound failed => commits_perform sound whole failed
  case stuck =>
    intro fault failed later
    have still := fault_run failed later
    refine ⟨run_of_fault failed later, shown_of_fault failed later, ?_, ?_⟩
    · simp only [finish, flush, outcome, still, Option.isSome_some, ↓reduceIte]
    · simp only [status, still]

end Writer

end Hopline.Codec

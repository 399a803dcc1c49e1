import Hopline.Proofs.Codec.Script

/-! Every operation of an encoding cursor, also one that fails, leaves the cursor within its
destination with less than one byte staged. -/

namespace Hopline.Codec.Writer

/-- An operation keeps the cursor in order and its destination of the same kind and size. -/
structure Keeps (before after : Writer) : Prop where
  valid : after.Valid
  capacity : after.capacity = before.capacity
  region : after.inRegion = before.inRegion

variable {writer : Writer} {action : Writer → Writer}

theorem Keeps.refl (valid : writer.Valid) : Keeps writer writer := ⟨valid, rfl, rfl⟩

theorem Keeps.trans {middle after : Writer} (earlier : Keeps writer middle) (later : Keeps middle after) :
    Keeps writer after :=
  ⟨later.valid, later.capacity.trans earlier.capacity, later.region.trans earlier.region⟩

theorem keeps_fail (valid : writer.Valid) (fault : Fault) : Keeps writer (writer.fail fault) :=
  ⟨⟨⟨valid.inside, valid.counted⟩, valid.partly, valid.clean⟩, rfl, rfl⟩

theorem keeps_store (valid : writer.Valid) {field : Bytes} (room : field.length ≤ writer.remaining) :
    Keeps writer (writer.store field) := by
  obtain ⟨placed, -⟩ := placed_store valid.toPlaced room
  exact ⟨⟨placed, valid.partly, valid.clean⟩, capacity_store valid.toPlaced room, inRegion_store writer field⟩

theorem remaining_store (placed : writer.Placed) {field : Bytes} (room : field.length ≤ writer.remaining) :
    (writer.store field).remaining = writer.remaining - field.length := by
  rw [remaining, capacity_store placed room]
  exact Nat.sub_add_eq _ _ _

/-- The staging byte may be full, as it is when a bit-field has just reached the end of its byte. -/
theorem keeps_align (placed : writer.Placed) (clean : writer.stage.toNat < 2 ^ writer.staged) :
    Keeps writer writer.align := by
  unfold align
  split
  next aligned => exact .refl ⟨placed, by omega, clean⟩
  next waiting =>
    let cleared := { writer with stage := 0, staged := 0 }
    have settled : cleared.Valid := ⟨⟨placed.inside, placed.counted⟩, Nat.zero_lt_succ 7, Nat.one_pos⟩
    have same : Keeps writer cleared := ⟨settled, rfl, rfl⟩
    dsimp only
    split
    next full => exact same.trans (keeps_fail settled .bufferOverflow)
    next room => exact same.trans (keeps_store settled (Nat.one_le_iff_ne_zero.mpr room))

theorem keeps_flush (valid : writer.Valid) : Keeps writer writer.flush := by
  unfold flush
  split
  · exact .refl valid
  · exact keeps_align valid.toPlaced valid.clean

theorem keeps_aligned (valid : writer.Valid) (acts : ∀ ready : Writer, ready.Valid → Keeps ready (action ready)) :
    Keeps writer (writer.aligned action) := by
  have ready := keeps_align valid.toPlaced valid.clean
  unfold aligned
  dsimp only
  split
  · exact .refl valid
  · split
    · exact ready
    · exact ready.trans (acts _ ready.valid)

theorem keeps_put (valid : writer.Valid) (field : Bytes) : Keeps writer (writer.put field) := by
  apply keeps_aligned valid
  intro ready valid
  split
  · exact keeps_fail valid .bufferOverflow
  next room => exact keeps_store valid (Nat.le_of_not_lt room)

theorem keeps_writeString (valid : writer.Valid) (text : Bytes) (limit : Nat) :
    Keeps writer (writer.writeString text limit) := by
  apply keeps_aligned valid
  intro ready valid
  dsimp only
  split
  · exact keeps_fail valid .bufferOverflow
  next room =>
    have ended : ((textField text limit).take (ready.remaining - 1) ++ [0]).length ≤ ready.remaining := by
      rw [List.length_append, List.length_take, List.length_singleton]
      omega
    have stored := keeps_store valid ended
    split
    · exact stored.trans (keeps_fail stored.valid .bufferOverflow)
    · exact stored

theorem keeps_stageBit (valid : writer.Valid) (bit : Bool) : Keeps writer (writer.stageBit bit) := by
  obtain ⟨-, clean⟩ := lowBits_stage valid.partly valid.clean bit
  have partly := valid.partly
  unfold stageBit
  dsimp only
  split
  next full =>
    let mask : UInt8 := if bit then 1 <<< UInt8.ofNat writer.staged else 0
    let grown := { writer with stage := writer.stage ||| mask, staged := writer.staged + 1 }
    have placed : grown.Placed := ⟨valid.inside, valid.counted⟩
    have committed := keeps_align placed clean
    exact ⟨committed.valid, committed.capacity, committed.region⟩
  next more => exact ⟨⟨⟨valid.inside, valid.counted⟩, by dsimp only; omega, clean⟩, rfl, rfl⟩

theorem keeps_stageBits (valid : writer.Valid) (bits : List Bool) : Keeps writer (writer.stageBits bits) := by
  induction bits generalizing writer with
  | nil => exact .refl valid
  | cons bit rest ih =>
    unfold stageBits
    split
    · exact .refl valid
    · have staged := keeps_stageBit valid bit
      exact staged.trans (ih staged.valid)

theorem keeps_writeBits (valid : writer.Valid) (value : UInt8) (width : Nat) :
    Keeps writer (writer.writeBits value width) := by
  unfold writeBits
  split
  · exact .refl valid
  · split
    · exact keeps_fail valid .invalidArgument
    · exact keeps_stageBits valid _

theorem keeps_seek (valid : writer.Valid) (delta : Int) : Keeps writer (writer.seek delta) := by
  apply keeps_aligned valid
  intro ready valid
  split
  · split
    · exact .refl valid
    · exact keeps_fail valid .notReady
  next bytes region =>
    have inside : min (ready.position + delta).toNat bytes.length ≤ bytes.length := Nat.min_le_right _ _
    refine ⟨⟨⟨?_, ?_⟩, valid.partly, valid.clean⟩, rfl, rfl⟩
    · rw [capacity, region]
      exact inside
    · simp only [output, region, List.length_take, Nat.min_eq_left inside]

theorem keeps_sign (valid : writer.Valid) (hook : Signer) : Keeps writer (writer.sign hook) := by
  apply keeps_aligned valid
  intro ready valid
  split
  · exact keeps_fail valid .notReady
  next bytes region =>
    have inside : ready.position ≤ bytes.length := by
      have inside := valid.inside
      rwa [capacity, region] at inside
    let span := (hook.run (bytes.take ready.position)).1
    let patched := { ready with destination := .region (span ++ bytes.drop ready.position) }
    have length : span.length = ready.position := by
      rw [hook.length_run, List.length_take, Nat.min_eq_left inside]
    have size : patched.capacity = bytes.length := by
      simp only [patched, capacity, Destination.capacity, List.length_append, List.length_drop, length]
      omega
    have kept : Keeps ready patched := by
      refine ⟨⟨⟨?_, ?_⟩, valid.partly, valid.clean⟩, ?_, ?_⟩
      · rw [size]
        exact inside
      · simp only [patched, output, List.length_take, List.length_append, length]
        omega
      · rw [size, capacity, region]
        rfl
      · simp only [inRegion, region, patched]
    dsimp only
    split
    · exact kept
    · exact kept.trans (keeps_fail kept.valid .noSign)

theorem keeps_perform (valid : writer.Valid) (step : WriteStep) : Keeps writer (writer.perform step) := by
  cases step with
  | unsigned8 | unsigned16 | unsigned32 | signed8 | signed16 | signed32 | bytes => exact keeps_put valid _
  | string text limit => exact keeps_writeString valid text limit
  | bit value => exact keeps_writeBits valid _ 1
  | bits value width => exact keeps_writeBits valid value width
  | flush => exact keeps_flush valid
  | seek delta => exact keeps_seek valid delta
  | sign hook => exact keeps_sign valid hook
  | flip | order next => exact ⟨⟨⟨valid.inside, valid.counted⟩, valid.partly, valid.clean⟩, rfl, rfl⟩

theorem keeps_run (valid : writer.Valid) (script : List WriteStep) : Keeps writer (writer.run script) := by
  induction script generalizing writer with
  | nil => exact .refl valid
  | cons step rest ih =>
    have first := keeps_perform valid step
    exact first.trans (ih first.valid)

end Hopline.Codec.Writer

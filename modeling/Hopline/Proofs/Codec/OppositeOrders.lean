import Hopline.Proofs.Codec.Script

/-! One script carried out from either byte order. The two cursors go through the same positions and
faults. What they lay down differs only in the fields that have an order, and each of those stands in
the second output back to front. -/

namespace Hopline.Codec

theorem ByteOrder.arrange_flipped (order : ByteOrder) (field : Bytes) :
    order.flipped.arrange field = (order.arrange field).reverse := by
  cases order with
  | little => rfl
  | big => exact (List.reverse_reverse field).symm

namespace WriteStep

/-- The steps that write, flush or change the order. They never lead back. -/
def Onward : WriteStep → Prop
  | .seek _ | .sign _ => False
  | _ => True

/-- The same step with the order that it names, if any, the other way round. -/
def opposite : WriteStep → WriteStep
  | .order next => .order next.flipped
  | step => step

/-- The bytes of a field that the byte order turns round, least significant first. -/
def ordered? : WriteStep → Option Bytes
  | .unsigned16 value => some (littleEndian 2 value.toNat)
  | .unsigned32 value => some (littleEndian 4 value.toNat)
  | .signed16 value => some (littleEndian 2 value.toUInt16.toNat)
  | .signed32 value => some (littleEndian 4 value.toUInt32.toNat)
  | .bytes span => some span
  | _ => none

end WriteStep

/-- A field that the byte order has turned round or left: where it lies, and its bytes as they stand. -/
structure OrderedField where
  start : Nat
  bytes : Bytes
deriving DecidableEq

/-- The place behind a field. -/
def OrderedField.stop (field : OrderedField) : Nat := field.start + field.bytes.length

/-- Two outputs agree byte for byte but for the fields, one behind the other. Each of them stands in the
first output as it is and in the second one back to front. -/
structure Turned (fields : List OrderedField) (first second : Bytes) : Prop where
  apart : fields.Pairwise fun earlier later => earlier.stop ≤ later.start
  inside : ∀ field ∈ fields, field.stop ≤ first.length
  length : second.length = first.length
  forward : ∀ field ∈ fields, (first.drop field.start).take field.bytes.length = field.bytes
  backward : ∀ field ∈ fields, (second.drop field.start).take field.bytes.length = field.bytes.reverse
  outside : ∀ index, (∀ field ∈ fields, index < field.start ∨ field.stop ≤ index) → second[index]? = first[index]?

variable {fields : List OrderedField} {first second : Bytes}

theorem turned_nil (bytes : Bytes) : Turned [] bytes bytes where
  apart := .nil
  inside := List.forall_mem_nil _
  length := rfl
  forward := List.forall_mem_nil _
  backward := List.forall_mem_nil _
  outside _ _ := rfl

theorem field_of_append {bytes field : Bytes} {start : Nat} (inside : start + field.length ≤ bytes.length)
    (stands : (bytes.drop start).take field.length = field) (more : Bytes) :
    ((bytes ++ more).drop start).take field.length = field := by
  rw [List.drop_append_of_le_length (by omega), List.take_append_of_le_length, stands]
  rw [List.length_drop]
  omega

theorem Turned.append (turned : Turned fields first second) (bytes : Bytes) :
    Turned fields (first ++ bytes) (second ++ bytes) := by
  have length := turned.length
  refine ⟨turned.apart, ?inside, ?length, ?forward, ?backward, ?outside⟩
  case inside =>
    intro field member
    rw [List.length_append]
    exact (turned.inside field member).trans (Nat.le_add_right _ _)
  case length => rw [List.length_append, List.length_append, length]
  case forward =>
    intro field member
    exact field_of_append (turned.inside field member) (turned.forward field member) bytes
  case backward =>
    intro field member
    have inside := turned.inside field member
    have stands := turned.backward field member
    unfold OrderedField.stop at inside
    rw [← length, ← List.length_reverse] at inside
    rw [← List.length_reverse] at stands ⊢
    exact field_of_append inside stands bytes
  case outside =>
    intro index apart
    have same := turned.outside index apart
    rcases Nat.lt_or_ge index first.length with before | past
    · rw [List.getElem?_append_left before, List.getElem?_append_left (length ▸ before), same]
    · rw [List.getElem?_append_right past, List.getElem?_append_right (length ▸ past), length]

theorem Turned.append_field (turned : Turned fields first second) (bytes : Bytes) :
    Turned (fields ++ [⟨first.length, bytes⟩]) (first ++ bytes) (second ++ bytes.reverse) := by
  have length := turned.length
  have longer := turned.append bytes
  refine ⟨?apart, ?inside, ?length, ?forward, ?backward, ?outside⟩
  case apart =>
    refine List.pairwise_append.mpr ⟨turned.apart, List.pairwise_singleton _ _, ?_⟩
    intro earlier member later new
    rw [List.mem_singleton.mp new]
    exact turned.inside earlier member
  case inside =>
    refine List.forall_mem_append.mpr ⟨longer.inside, ?_⟩
    rw [List.forall_mem_singleton, List.length_append]
    exact Nat.le_refl _
  case length => rw [List.length_append, List.length_append, List.length_reverse, length]
  case forward =>
    refine List.forall_mem_append.mpr ⟨longer.forward, ?_⟩
    rw [List.forall_mem_singleton, List.drop_left, List.take_length]
  case backward =>
    refine List.forall_mem_append.mpr ⟨?_, ?_⟩
    · exact (turned.append bytes.reverse).backward
    · rw [List.forall_mem_singleton, ← length, List.drop_left, ← List.length_reverse, List.take_length]
  case outside =>
    intro index apart
    obtain ⟨old, new⟩ := List.forall_mem_append.mp apart
    rw [List.forall_mem_singleton] at new
    have longer : (second ++ bytes.reverse).length = (first ++ bytes).length := by
      rw [List.length_append, List.length_append, List.length_reverse, length]
    rcases new with before | past
    · rw [List.getElem?_append_left before, List.getElem?_append_left (length ▸ before), turned.outside index old]
    · have past : (first ++ bytes).length ≤ index := List.length_append.trans_le past
      rw [List.getElem?_eq_none past, List.getElem?_eq_none (longer.trans_le past)]

namespace Writer

/-- A field that ends where a cursor stands, unless the cursor has failed. -/
def behind? (writer : Writer) (bytes : Bytes) : Option OrderedField :=
  if writer.fault = none then some ⟨writer.position - bytes.length, bytes⟩ else none

/-- The ordered field that a step lays down, unless the step fails. -/
def laid? (writer : Writer) (step : WriteStep) : Option OrderedField :=
  step.ordered?.bind fun field => (writer.perform step).behind? (writer.order.arrange field)

/-- The ordered fields that a script lays down, in order. -/
def orderedFields (writer : Writer) : List WriteStep → List OrderedField
  | [] => []
  | step :: rest => (writer.laid? step).toList ++ (writer.perform step).orderedFields rest

/-- Two cursors that differ in nothing but their orders and the ordered fields behind them. -/
structure Opposed (fields : List OrderedField) (first second : Writer) : Prop where
  placed : first.Placed
  placed' : second.Placed
  position : second.position = first.position
  order : second.order = first.order.flipped
  stage : second.stage = first.stage
  staged : second.staged = first.staged
  fault : second.fault = first.fault
  capacity : second.capacity = first.capacity
  ahead : second.ahead = first.ahead
  turned : Turned fields first.output second.output

variable {fields : List OrderedField} {first second : Writer} {action action' : Writer → Writer}

theorem Opposed.remaining (opposed : Opposed fields first second) : second.remaining = first.remaining :=
  congrArg₂ (· - ·) opposed.capacity opposed.position

theorem Opposed.fail (opposed : Opposed fields first second) (fault : Fault) :
    Opposed fields (first.fail fault) (second.fail fault) :=
  { opposed with
    placed := ⟨opposed.placed.inside, opposed.placed.counted⟩
    placed' := ⟨opposed.placed'.inside, opposed.placed'.counted⟩
    fault := congrArg (Option.or · (some fault)) opposed.fault }

theorem Opposed.clear (opposed : Opposed fields first second) :
    Opposed fields { first with stage := 0, staged := 0 } { second with stage := 0, staged := 0 } :=
  { opposed with
    placed := ⟨opposed.placed.inside, opposed.placed.counted⟩
    placed' := ⟨opposed.placed'.inside, opposed.placed'.counted⟩
    stage := rfl
    staged := rfl }

/-- Storing keeps two cursors opposed if the outputs stay turned. -/
theorem Opposed.store_of_turned (opposed : Opposed fields first second) {more : List OrderedField} {bytes bytes' : Bytes}
    (room : bytes.length ≤ first.remaining) (same : bytes'.length = bytes.length)
    (turned : Turned more (first.output ++ bytes) (second.output ++ bytes')) :
    Opposed more (first.store bytes) (second.store bytes') := by
  have room' : bytes'.length ≤ second.remaining := by
    rw [same, opposed.remaining]
    exact room
  obtain ⟨placed, output⟩ := placed_store opposed.placed room
  obtain ⟨placed', output'⟩ := placed_store opposed.placed' room'
  refine ⟨placed, placed', ?position, opposed.order, opposed.stage, opposed.staged, opposed.fault, ?capacity, ?ahead, ?_⟩
  case position => exact congrArg₂ (· + ·) opposed.position same
  case capacity =>
    rw [capacity_store opposed.placed room, capacity_store opposed.placed' room']
    exact opposed.capacity
  case ahead => rw [ahead_store opposed.placed, ahead_store opposed.placed', opposed.ahead, same]
  · rw [output, output']
    exact turned

theorem Opposed.store (opposed : Opposed fields first second) {bytes : Bytes} (room : bytes.length ≤ first.remaining) :
    Opposed fields (first.store bytes) (second.store bytes) :=
  opposed.store_of_turned room rfl (opposed.turned.append bytes)

theorem Opposed.store_field (opposed : Opposed fields first second) {bytes : Bytes}
    (room : bytes.length ≤ first.remaining) :
    Opposed (fields ++ [⟨first.position, bytes⟩]) (first.store bytes) (second.store bytes.reverse) := by
  apply opposed.store_of_turned room List.length_reverse
  rw [← opposed.placed.counted]
  exact opposed.turned.append_field bytes

theorem Opposed.align (opposed : Opposed fields first second) : Opposed fields first.align second.align := by
  have cleared := opposed.clear
  unfold Writer.align
  rw [opposed.staged]
  split
  next => exact opposed
  next =>
    dsimp only
    rw [cleared.remaining, opposed.stage]
    split
    next full => exact cleared.fail .bufferOverflow
    next room => exact cleared.store (Nat.one_le_iff_ne_zero.mpr room)

/-- What holds of opposed cursors that have failed, and of what the actions leave of any others, holds of
what the actions leave once both are aligned. -/
theorem Opposed.aligned {holds : Writer → Writer → Prop} (opposed : Opposed fields first second)
    (stuck : ∀ ready ready' : Writer, Opposed fields ready ready' → ready.fault ≠ none → holds ready ready')
    (acts : ∀ ready ready' : Writer, Opposed fields ready ready' → ready.fault = none → holds (action ready) (action' ready')) :
    holds (first.aligned action) (second.aligned action') := by
  have ready := opposed.align
  unfold Writer.aligned
  dsimp only
  rw [opposed.fault, ready.fault]
  split
  next failed => exact stuck first second opposed (Option.isSome_iff_ne_none.mp failed)
  next =>
    split
    next failed => exact stuck _ _ ready (Option.isSome_iff_ne_none.mp failed)
    next sound => exact acts _ _ ready (Option.not_isSome_iff_eq_none.mp sound)

theorem Opposed.put (opposed : Opposed fields first second) (bytes : Bytes) :
    Opposed fields (first.put bytes) (second.put bytes) := by
  apply opposed.aligned
  · exact fun ready ready' still _ => still
  · intro ready ready' still _
    rw [still.remaining]
    split
    next short => exact still.fail .bufferOverflow
    next room => exact still.store (Nat.le_of_not_lt room)

theorem Opposed.put_field (opposed : Opposed fields first second) (bytes : Bytes) :
    Opposed (fields ++ ((first.put bytes).behind? bytes).toList) (first.put bytes) (second.put bytes.reverse) := by
  have stuck {ready ready' : Writer} (still : Opposed fields ready ready') (failed : ready.fault ≠ none) :
      Opposed (fields ++ (ready.behind? bytes).toList) ready ready' := by
    rw [behind?, if_neg failed, Option.toList_none, List.append_nil]
    exact still
  apply @Opposed.aligned fields first second _ _
    (fun after after' => Opposed (fields ++ (after.behind? bytes).toList) after after') opposed
  · exact fun ready ready' still failed => stuck still failed
  · intro ready ready' still sound
    rw [still.remaining, List.length_reverse]
    split
    next short =>
      apply stuck (still.fail .bufferOverflow)
      simp only [Writer.fail, sound, Option.none_or]
      exact Option.some_ne_none _
    next room =>
      have stored : (ready.store bytes).behind? bytes = some ⟨ready.position, bytes⟩ := by
        rw [behind?, if_pos (show (ready.store bytes).fault = none from sound)]
        exact congrArg (fun start => some (OrderedField.mk start bytes)) (Nat.add_sub_cancel _ _)
      rw [stored]
      exact still.store_field (Nat.le_of_not_lt room)

theorem Opposed.writeString (opposed : Opposed fields first second) (text : Bytes) (limit : Nat) :
    Opposed fields (first.writeString text limit) (second.writeString text limit) := by
  apply opposed.aligned
  · exact fun ready ready' still _ => still
  · intro ready ready' still _
    dsimp only
    rw [still.remaining]
    split
    next full => exact still.fail .bufferOverflow
    next room =>
      have ended : ((textField text limit).take (ready.remaining - 1) ++ [0]).length ≤ ready.remaining := by
        rw [List.length_append, List.length_take, List.length_singleton]
        omega
      have stored := still.store ended
      split
      next cut => exact stored.fail .bufferOverflow
      next whole => exact stored

theorem Opposed.stageBit (opposed : Opposed fields first second) (bit : Bool) :
    Opposed fields (first.stageBit bit) (second.stageBit bit) := by
  have grown : Opposed fields
      { first with
        stage := first.stage ||| if bit then 1 <<< UInt8.ofNat first.staged else 0
        staged := first.staged + 1 }
      { second with
        stage := first.stage ||| if bit then 1 <<< UInt8.ofNat first.staged else 0
        staged := first.staged + 1 } :=
    { opposed with
      placed := ⟨opposed.placed.inside, opposed.placed.counted⟩
      placed' := ⟨opposed.placed'.inside, opposed.placed'.counted⟩
      stage := rfl
      staged := rfl }
  unfold Writer.stageBit
  rw [opposed.stage, opposed.staged]
  dsimp only
  split
  next full => exact grown.align
  next more => exact grown

theorem Opposed.stageBits (opposed : Opposed fields first second) (bits : List Bool) :
    Opposed fields (first.stageBits bits) (second.stageBits bits) := by
  induction bits generalizing first second with
  | nil => exact opposed
  | cons bit rest ih =>
    unfold Writer.stageBits
    rw [opposed.fault]
    split
    next failed => exact opposed
    next sound => exact ih (opposed.stageBit bit)

theorem Opposed.writeBits (opposed : Opposed fields first second) (value : UInt8) (width : Nat) :
    Opposed fields (first.writeBits value width) (second.writeBits value width) := by
  unfold Writer.writeBits
  rw [opposed.fault]
  split
  next failed => exact opposed
  next sound =>
    split
    next illegal => exact opposed.fail .invalidArgument
    next legal => exact opposed.stageBits _

theorem Opposed.flush (opposed : Opposed fields first second) : Opposed fields first.flush second.flush := by
  unfold Writer.flush
  rw [opposed.fault]
  split
  next failed => exact opposed
  next sound => exact opposed.align

theorem Opposed.setOrder (opposed : Opposed fields first second) {next next' : ByteOrder}
    (against : next' = next.flipped) : Opposed fields (first.setOrder next) (second.setOrder next') :=
  { opposed with
    placed := ⟨opposed.placed.inside, opposed.placed.counted⟩
    placed' := ⟨opposed.placed'.inside, opposed.placed'.counted⟩
    order := against }

theorem Opposed.perform (opposed : Opposed fields first second) {step : WriteStep} (onward : step.Onward) :
    Opposed (fields ++ (first.laid? step).toList) (first.perform step) (second.perform step.opposite) := by
  -- a field that has an order comes to the second cursor back to front
  have put (field : Bytes) := opposed.put_field (first.order.arrange field)
  simp only [← ByteOrder.arrange_flipped, ← opposed.order] at put
  have unordered {after after' : Writer} (plain : step.ordered? = none) (still : Opposed fields after after') :
      Opposed (fields ++ (first.laid? step).toList) after after' := by
    rw [laid?, plain, Option.bind_none, Option.toList_none, List.append_nil]
    exact still
  cases step with
  | unsigned16 | unsigned32 | signed16 | signed32 | bytes => exact put _
  | unsigned8 | signed8 => exact unordered rfl (opposed.put _)
  | string text limit => exact unordered rfl (opposed.writeString text limit)
  | bit value => exact unordered rfl (opposed.writeBits _ 1)
  | bits value width => exact unordered rfl (opposed.writeBits value width)
  | flush => exact unordered rfl opposed.flush
  | order next => exact unordered rfl (opposed.setOrder rfl)
  | flip => exact unordered rfl (opposed.setOrder (congrArg ByteOrder.flipped opposed.order))
  | seek delta | sign hook => exact onward.elim

theorem Opposed.run (opposed : Opposed fields first second) {script : List WriteStep}
    (onward : ∀ step ∈ script, step.Onward) :
    Opposed (fields ++ first.orderedFields script) (first.run script) (second.run (script.map WriteStep.opposite)) := by
  induction script generalizing fields first second with
  | nil =>
    rw [orderedFields, List.append_nil]
    exact opposed
  | cons step rest ih =>
    obtain ⟨here, later⟩ := List.forall_mem_cons.mp onward
    have after := ih (opposed.perform here) later
    rw [List.append_assoc] at after
    exact after

theorem opposed_ofRegion (region : Bytes) :
    Opposed [] ((ofRegion region).setOrder .little) ((ofRegion region).setOrder .big) where
  placed := (valid_ofRegion region).toPlaced
  placed' := ⟨(valid_ofRegion region).inside, (valid_ofRegion region).counted⟩
  position := rfl
  order := rfl
  stage := rfl
  staged := rfl
  fault := rfl
  capacity := rfl
  ahead := rfl
  turned := turned_nil _

/-- From the two byte orders a script that never leads back goes through the same positions and faults.
The regions agree in the end but for the ordered fields that were written, and each of those stands in
the second region back to front. -/
theorem symmetric_in_order (script : List WriteStep) (region : Bytes) (onward : ∀ step ∈ script, step.Onward) :
    let little := (ofRegion region).setOrder .little
    let big := (ofRegion region).setOrder .big
    ∀ front, front <+: script →
      let second := big.run (front.map WriteStep.opposite)
      second.position = (little.run front).position ∧ second.fault = (little.run front).fault ∧
      Turned (little.orderedFields front) (little.run front).destination.contents second.destination.contents := by
  intro little big front within second
  have opposed := (opposed_ofRegion region).run fun step member => onward step (within.subset member)
  refine ⟨opposed.position, opposed.fault, ?_⟩
  have turned := opposed.turned.append (little.run front).ahead
  rw [← contents_eq, ← opposed.ahead, ← contents_eq] at turned
  exact turned

/-- Two of the ordered fields fit. The third one does not and turns nothing. -/
theorem symmetric_in_order_mixed :
    let script : List WriteStep :=
      [.bits 5 3, .unsigned16 0x1234, .string [0x41] 0, .order .big, .bytes [1, 2, 3], .unsigned8 7, .signed32 (-2)]
    let region : Bytes := List.replicate 12 9
    let little := (ofRegion region).setOrder .little
    let big := (ofRegion region).setOrder .big
    let second := big.run (script.map WriteStep.opposite)
    little.orderedFields script = [⟨1, [0x34, 0x12]⟩, ⟨5, [3, 2, 1]⟩] ∧
      (little.run script).destination.contents = [5, 0x34, 0x12, 0x41, 0, 3, 2, 1, 7, 9, 9, 9] ∧
      second.destination.contents = [5, 0x12, 0x34, 0x41, 0, 1, 2, 3, 7, 9, 9, 9] ∧
      second.fault = some .bufferOverflow ∧
      Turned (little.orderedFields script) (little.run script).destination.contents second.destination.contents := by
  intro script region little big second
  have onward : ∀ step ∈ script, step.Onward := by simp [script, WriteStep.Onward]
  obtain ⟨-, fault, turned⟩ := symmetric_in_order script region onward script List.prefix_rfl
  refine ⟨by decide +kernel, by decide +kernel, by decide +kernel, ?_, turned⟩
  exact fault.trans (by decide +kernel)

end Writer

end Hopline.Codec

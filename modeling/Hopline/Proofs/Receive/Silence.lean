import Hopline.Proofs.Receive.CleanStream
import Hopline.Proofs.Receive.Stream

/-! A window that finds nothing goes on with what it has heard, and the first frame that it finds
makes it start afresh. So a run splits at its first find, whatever was heard before. -/

namespace Hopline

theorem recent_of_le {heard : Bytes} (room : heard.length ≤ maxFrame) : recent heard = heard := by
  rw [recent, Nat.sub_eq_zero_of_le room, List.drop_zero]

theorem recent_append_of_full (heard : Bytes) {frame : Bytes} (full : frame.length = maxFrame) :
    recent (heard ++ frame) = frame := by
  rw [recent, List.length_append, full, Nat.add_sub_cancel, List.drop_left]

theorem recent_wire (frame : Frame) : recent (frame.wire .checksum) = frame.wire .checksum := by
  apply recent_of_le
  rw [frame.length_wire]
  exact frame.wireSize_le

namespace SyncPolicy

/-- The frame that a policy sees at the end of what was heard. -/
def sight? (policy : SyncPolicy) (hooks : FrameHooks) (heard : Bytes) : Option Frame :=
  (policy.spans (recent heard)).findSome? (Frame.ofSpan? hooks)

/-- Nothing is seen with any byte of `stream`. -/
def Silent (policy : SyncPolicy) (hooks : FrameHooks) (heard stream : Bytes) : Prop :=
  ∀ part, part <+: stream → part ≠ [] → policy.sight? hooks (heard ++ part) = none

variable {policy : SyncPolicy} {hooks : FrameHooks} {heard stream : Bytes}

theorem silent_nil : policy.Silent hooks heard [] := by
  intro part front some
  exact absurd (List.prefix_nil.mp front) some

theorem silent_cons {byte : UInt8} {rest : Bytes} :
    policy.Silent hooks heard (byte :: rest) ↔
      policy.sight? hooks (heard ++ [byte]) = none ∧ policy.Silent hooks (heard ++ [byte]) rest := by
  constructor
  · intro silent
    refine ⟨silent [byte] (List.prefix_append [byte] rest) (List.cons_ne_nil _ _), ?_⟩
    intro part front _
    rw [List.append_assoc]
    exact silent (byte :: part) (List.cons_prefix_cons.mpr ⟨rfl, front⟩) (List.cons_ne_nil _ _)
  · rintro ⟨first, later⟩ part front some
    cases part with
    | nil => exact absurd rfl some
    | cons head part =>
      obtain ⟨rfl, front'⟩ := List.cons_prefix_cons.mp front
      cases part with
      | nil => exact first
      | cons next part =>
        rw [List.append_cons]
        exact later (next :: part) front' (List.cons_ne_nil _ _)

theorem exists_first (loud : ¬policy.Silent hooks heard stream) :
    ∃ (front : Bytes) (byte : UInt8) (back : Bytes) (frame : Frame), stream = front ++ byte :: back ∧
      policy.Silent hooks heard front ∧ policy.sight? hooks (heard ++ (front ++ [byte])) = some frame := by
  induction stream generalizing heard with
  | nil => exact absurd silent_nil loud
  | cons byte rest ih =>
    cases seen : policy.sight? hooks (heard ++ [byte]) with
    | some frame => exact ⟨[], byte, rest, frame, rfl, silent_nil, seen⟩
    | none =>
      have loud : ¬policy.Silent hooks (heard ++ [byte]) rest := fun silent => loud (silent_cons.mpr ⟨seen, silent⟩)
      obtain ⟨front, last, back, frame, rfl, silent, found⟩ := ih loud
      refine ⟨byte :: front, last, back, frame, rfl, silent_cons.mpr ⟨seen, silent⟩, ?_⟩
      rw [List.append_assoc] at found
      exact found

theorem sight?_headOnly {frame : Frame} :
    SyncPolicy.headOnly.sight? .checksum heard = some frame ↔ recent heard = frame.wire .checksum := by
  rw [sight?, Window.findSome?_spans]
  exact Frame.fills_checksum

theorem sight?_headOnly_eq_none :
    SyncPolicy.headOnly.sight? .checksum heard = none ↔ ∀ frame : Frame, recent heard ≠ frame.wire .checksum := by
  simp only [Option.eq_none_iff_forall_ne_some, ne_eq, sight?_headOnly]

theorem sight?_wire (policy : SyncPolicy) (frame : Frame) :
    policy.sight? .checksum (frame.wire .checksum) = some frame := by
  rw [sight?, recent_wire, Window.findSome?_spans]
  have fills := Frame.fills_checksum.mpr (rfl : frame.wire .checksum = _)
  cases policy with
  | headOnly => exact fills
  | tailScan =>
    refine ⟨_, List.suffix_refl _, fills, ?_⟩
    intro longer suffix more
    exact absurd suffix.length_le (Nat.not_le.mpr more)

/-- Of the frames at the end of what was heard the longest is seen. -/
theorem sight?_tailScan_eq_some {frame : Frame} :
    SyncPolicy.tailScan.sight? .checksum heard = some frame ↔ frame.wire .checksum <:+ recent heard ∧
      ∀ other : Frame, other.wire .checksum <:+ recent heard → other.wireSize ≤ frame.wireSize := by
  rw [sight?, Window.findSome?_spans]
  constructor
  · rintro ⟨span, suffix, fills, longest⟩
    obtain rfl := Frame.fills_checksum.mp fills
    refine ⟨suffix, ?_⟩
    intro other later
    by_contra more
    apply longest _ later _ other (Frame.fills_checksum.mpr rfl)
    rw [frame.length_wire, other.length_wire]
    exact Nat.lt_of_not_le more
  · rintro ⟨suffix, longest⟩
    refine ⟨_, suffix, Frame.fills_checksum.mpr rfl, ?_⟩
    rintro _ later more other fills
    obtain rfl := Frame.fills_checksum.mp fills
    rw [frame.length_wire, other.length_wire] at more
    exact Nat.not_le.mpr more (longest other later)

theorem sight?_tailScan_eq_none :
    SyncPolicy.tailScan.sight? .checksum heard = none ↔ ∀ frame : Frame, ¬frame.wire .checksum <:+ recent heard := by
  have unseen (span : Bytes) : Frame.ofSpan? .checksum span = none ↔ ∀ frame : Frame, span ≠ frame.wire .checksum := by
    simp only [Option.eq_none_iff_forall_ne_some, ne_eq, Frame.ofSpan?_eq_some, Frame.fills_checksum]
  simp only [sight?, spans, List.findSome?_eq_none_iff, List.mem_tails, unseen]
  constructor
  · intro absent frame suffix
    exact absent _ suffix frame rfl
  · rintro absent _ suffix frame rfl
    exact absent frame suffix

end SyncPolicy

namespace Window

variable {hooks : FrameHooks} {policy : SyncPolicy} {window : Window} {heard stream : Bytes}

/-- A window that looks for frames at the end of what was heard. -/
structure Attends (hooks : FrameHooks) (policy : SyncPolicy) (heard : Bytes) (window : Window) : Prop where
  hooks : window.hooks = hooks
  policy : window.policy = policy
  bytes : window.bytes = recent heard

theorem attends_empty (hooks : FrameHooks) (policy : SyncPolicy) : (empty hooks policy).Attends hooks policy [] :=
  ⟨rfl, rfl, rfl⟩

theorem Attends.push (attends : window.Attends hooks policy heard) (byte : UInt8) :
    (window.push byte).Attends hooks policy (heard ++ [byte]) := by
  have hooks := (window.hooks_push byte).trans attends.hooks
  have policy := (window.policy_push byte).trans attends.policy
  exact ⟨hooks, policy, bytes_push attends.bytes byte⟩

theorem Attends.ingest (attends : window.Attends hooks policy heard) (byte : UInt8) :
    let found := policy.sight? hooks (heard ++ [byte])
    (window.ingest byte).frame = found ∧
      (window.ingest byte).window.Attends hooks policy (if found.isSome then [] else heard ++ [byte]) := by
  intro found
  have held := attends.push byte
  have search : (Search.run hooks (candidates policy (recent (heard ++ [byte])))).frame = found :=
    (search_candidates hooks policy _).1
  unfold Window.ingest
  dsimp only
  rw [held.hooks, held.policy, held.bytes, search]
  cases found with
  | none => exact ⟨rfl, rfl, rfl, rfl⟩
  | some frame => exact ⟨rfl, rfl, rfl, rfl⟩

theorem feedFrom_silent (attends : window.Attends hooks policy heard) (silent : policy.Silent hooks heard stream)
    (index : Nat) :
    (window.feedFrom index stream).frames = [] ∧
      (window.feedFrom index stream).window.Attends hooks policy (heard ++ stream) := by
  induction stream generalizing window heard index with
  | nil =>
    rw [List.append_nil]
    exact ⟨rfl, attends⟩
  | cons byte rest ih =>
    obtain ⟨nothing, silent⟩ := SyncPolicy.silent_cons.mp silent
    obtain ⟨missing, attends⟩ := attends.ingest byte
    rw [nothing] at missing attends
    obtain ⟨frames, attends⟩ := ih attends silent (index + 1)
    rw [List.append_cons]
    refine ⟨?_, attends⟩
    rw [feedFrom, missing]
    exact frames

theorem exists_attends (attends : window.Attends hooks policy heard) (index : Nat) (stream : Bytes) :
    ∃ since : Bytes, (window.feedFrom index stream).window.Attends hooks policy since := by
  induction stream generalizing window heard index with
  | nil => exact ⟨heard, attends⟩
  | cons byte rest ih => exact ih (attends.ingest byte).2 (index + 1)

theorem Attends.held (attends : window.Attends hooks policy heard) : window.Attends hooks policy window.bytes := by
  refine ⟨attends.hooks, attends.policy, (recent_of_le ?_).symm⟩
  rw [attends.bytes, length_recent]
  exact Nat.min_le_right _ _

theorem feedFrom_first (attends : window.Attends hooks policy heard) {front : Bytes} {byte : UInt8} {frame : Frame}
    (silent : policy.Silent hooks heard front) (found : policy.sight? hooks (heard ++ (front ++ [byte])) = some frame)
    (index : Nat) (back : Bytes) :
    ∃ later : Window, later.Attends hooks policy [] ∧
      (window.feedFrom index (front ++ byte :: back)).frames =
        (index + front.length, frame) :: (later.feedFrom (index + front.length + 1) back).frames := by
  obtain ⟨nothing, still⟩ := feedFrom_silent attends silent index
  obtain ⟨answer, afresh⟩ := still.ingest byte
  rw [List.append_assoc, found] at answer afresh
  refine ⟨_, afresh, ?_⟩
  rw [(feedFrom_append window index front (byte :: back)).1, nothing, feedFrom, answer]
  rfl

theorem feedFrom_eq_nil (attends : window.Attends hooks policy heard) (index : Nat) :
    (window.feedFrom index stream).frames = [] ↔ policy.Silent hooks heard stream := by
  constructor
  · intro nothing
    by_contra loud
    obtain ⟨front, byte, back, frame, rfl, silent, found⟩ := SyncPolicy.exists_first loud
    obtain ⟨later, _, frames⟩ := feedFrom_first attends silent found index back
    rw [frames] at nothing
    cases nothing
  · intro silent
    exact (feedFrom_silent attends silent index).1

end Window

namespace Frame

/-- Nothing is seen within the frame when it is heard from its first byte. -/
def Unbroken (policy : SyncPolicy) (frame : Frame) : Prop :=
  policy.Silent .checksum [] (frame.wire .checksum).dropLast

theorem length_front {frame : Frame} {front : Bytes} (inside : front <+: (frame.wire .checksum).dropLast) :
    front.length < frame.wireSize := by
  have length := inside.length_le
  have some : 0 < frame.wireSize := Nat.le_add_left _ _
  rw [List.length_dropLast, frame.length_wire] at length
  omega

theorem recent_front {frame : Frame} {front : Bytes} (inside : front <+: (frame.wire .checksum).dropLast) :
    recent front = front :=
  recent_of_le ((length_front inside).le.trans frame.wireSize_le)

/-- No front of a frame is a frame, so looking at the start only breaks none. -/
theorem unbroken_headOnly (frame : Frame) : frame.Unbroken .headOnly := by
  intro part front _
  cases seen : SyncPolicy.headOnly.sight? .checksum ([] ++ part) with
  | none => rfl
  | some other =>
    have whole := SyncPolicy.sight?_headOnly.mp seen
    rw [List.nil_append, recent_front front] at whole
    have incomplete := decode_front (front.trans (List.dropLast_prefix _)) (length_front front)
    have complete := other.decode_wire []
    rw [List.append_nil, ← whole, incomplete] at complete
    cases complete

end Frame

namespace Window

variable {policy : SyncPolicy} {window : Window}

theorem feedFrom_wire (attends : window.Attends .checksum policy []) {frame : Frame} (unbroken : frame.Unbroken policy)
    (index : Nat) (rest : Bytes) :
    ∃ later : Window, later.Attends .checksum policy [] ∧
      (window.feedFrom index (frame.wire .checksum ++ rest)).frames =
        (index + frame.wireSize - 1, frame) :: (later.feedFrom (index + frame.wireSize) rest).frames := by
  obtain ⟨front, last, split, length⟩ := frame.exists_last .checksum
  have silent : policy.Silent .checksum [] front := by
    rw [Frame.Unbroken, split, List.dropLast_concat] at unbroken
    exact unbroken
  have found : policy.sight? .checksum ([] ++ (front ++ [last])) = some frame := by
    rw [List.nil_append, ← split]
    exact policy.sight?_wire frame
  obtain ⟨later, afresh, frames⟩ := feedFrom_first attends silent found index rest
  refine ⟨later, afresh, ?_⟩
  rw [split, ← List.append_cons, frames, ← length]
  rfl

theorem feedFrom_unbroken (attends : window.Attends .checksum policy []) {frames : List Frame}
    (unbroken : ∀ frame ∈ frames, frame.Unbroken policy) (index : Nat) (rest : Bytes) :
    ∃ later : Window, later.Attends .checksum policy [] ∧
      (window.feedFrom index (Frame.wires .checksum frames ++ rest)).frames =
        Frame.completions index frames ++
          (later.feedFrom (index + (Frame.wires .checksum frames).length) rest).frames := by
  induction frames generalizing window index with
  | nil => exact ⟨window, attends, rfl⟩
  | cons frame others ih =>
    obtain ⟨first, unbroken⟩ := List.forall_mem_cons.mp unbroken
    obtain ⟨next, afresh, found⟩ :=
      feedFrom_wire attends first index (Frame.wires .checksum others ++ rest)
    obtain ⟨later, afresh, frames⟩ := ih afresh unbroken (index + frame.wireSize)
    refine ⟨later, afresh, ?_⟩
    rw [Frame.wires_cons, List.append_assoc, found, frames, List.length_append, frame.length_wire, ← Nat.add_assoc]
    rfl

theorem feedFrom_whole (attends : window.Attends .checksum policy []) {frames : List Frame}
    (unbroken : ∀ frame ∈ frames, frame.Unbroken policy) (index : Nat) :
    (window.feedFrom index (Frame.wires .checksum frames)).frames = Frame.completions index frames := by
  obtain ⟨later, _, found⟩ := feedFrom_unbroken attends unbroken index []
  rw [List.append_nil] at found
  exact found.trans (List.append_nil _)

end Window

end Hopline

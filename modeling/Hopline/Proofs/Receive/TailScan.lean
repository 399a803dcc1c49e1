import Hopline.Proofs.Receive.Silence

/-! Frames within frames. A window that looks at every offset takes the bytes of a frame inside
another for a frame of their own, and loses the one around them; nothing else can go wrong on a clean
line. -/

namespace Hopline

/-- The bytes of `inner` stand within those of `outer` and end before them. -/
def Frame.Embeds (outer inner : Frame) : Prop :=
  inner.wire .checksum <:+: (outer.wire .checksum).dropLast

/-- The bytes of `inner` stand within those of `outer` and end with its byte at `place`, which is not its last. -/
structure Frame.EndsWithin (outer inner : Frame) (place : Nat) : Prop where
  suffix : inner.wire .checksum <:+ (outer.wire .checksum).take (place + 1)
  inside : place + 1 < outer.wireSize

/-- Of the frames within `outer` the first to be complete is `first`, with the byte at `place`. No other one that is
complete with this byte is longer. -/
structure Frame.CompletesFirst (outer first : Frame) (place : Nat) : Prop where
  ends : outer.EndsWithin first place
  earliest : ∀ earlier < place, ∀ inner : Frame, ¬outer.EndsWithin inner earlier
  longest : ∀ inner : Frame, outer.EndsWithin inner place → inner.wireSize ≤ first.wireSize

namespace Frame

variable {outer inner first : Frame}

theorem EndsWithin.embeds {place : Nat} (ends : outer.EndsWithin inner place) : outer.Embeds inner := by
  have inside := ends.inside
  have shorter : (outer.wire .checksum).take (place + 1) = (outer.wire .checksum).dropLast.take (place + 1) := by
    rw [List.dropLast_eq_take, List.take_take, outer.length_wire, Nat.min_eq_left (by omega)]
  exact List.infix_iff_suffix_prefix.mpr ⟨_, ends.suffix, shorter ▸ List.take_prefix _ _⟩

theorem Embeds.wireSize_lt (embeds : outer.Embeds inner) : inner.wireSize < outer.wireSize := by
  obtain ⟨part, suffix, front⟩ := List.infix_iff_suffix_prefix.mp embeds
  rw [← inner.length_wire .checksum]
  exact suffix.length_le.trans_lt (length_front front)

/-- What is seen first within a frame is the first to be complete there. -/
theorem completesFirst_of_sight {front : Bytes} {byte : UInt8}
    (inside : front ++ [byte] <+: (outer.wire .checksum).dropLast)
    (silent : SyncPolicy.tailScan.Silent .checksum [] front)
    (seen : SyncPolicy.tailScan.sight? .checksum (front ++ [byte]) = some first) :
    outer.CompletesFirst first front.length := by
  obtain ⟨suffix, longest⟩ := SyncPolicy.sight?_tailScan_eq_some.mp seen
  have length : (front ++ [byte]).length = front.length + 1 := List.length_append
  have whole : (outer.wire .checksum).take (front.length + 1) = front ++ [byte] := by
    rw [← length]
    exact (List.prefix_iff_eq_take.mp (inside.trans (List.dropLast_prefix _))).symm
  have short := length_front inside
  rw [recent_front inside] at suffix longest
  rw [length] at short
  constructor
  case ends => exact ⟨whole ▸ suffix, short⟩
  case earliest =>
    intro earlier before inner ends
    let part := front.take (earlier + 1)
    have opening : part <+: front := List.take_prefix _ _
    have some : part ≠ [] := by
      apply List.ne_nil_of_length_pos
      rw [List.length_take]
      omega
    have heard : (outer.wire .checksum).take (earlier + 1) = part := by
      calc (outer.wire .checksum).take (earlier + 1)
        _ = ((outer.wire .checksum).take (front.length + 1)).take (earlier + 1) := by
          rw [List.take_take, Nat.min_eq_left (by omega)]
        _ = part := by rw [whole, List.take_append_of_le_length before]
    have unseen := SyncPolicy.sight?_tailScan_eq_none.mp (silent part opening some) inner
    rw [List.nil_append, recent_front ((opening.trans (List.prefix_append _ _)).trans inside)] at unseen
    exact unseen (heard ▸ ends.suffix)
  case longest =>
    intro inner ends
    exact longest inner (whole ▸ ends.suffix)

theorem embeds_of_sight {front : Bytes} (inside : front <+: (outer.wire .checksum).dropLast)
    (seen : SyncPolicy.tailScan.sight? .checksum front = some inner) : outer.Embeds inner := by
  obtain ⟨span, suffix, fills⟩ := Window.exists_span_of_find seen
  rw [fills_checksum.mp fills, recent_front inside] at suffix
  exact List.infix_iff_suffix_prefix.mpr ⟨front, suffix, inside⟩

theorem unbroken_tailScan : outer.Unbroken .tailScan ↔ ∀ inner : Frame, ¬outer.Embeds inner := by
  constructor
  · intro unbroken inner embeds
    obtain ⟨part, suffix, front⟩ := List.infix_iff_suffix_prefix.mp embeds
    have some : part ≠ [] := by
      rintro rfl
      exact inner.wire_ne_nil .checksum (List.suffix_nil.mp suffix)
    have unseen := SyncPolicy.sight?_tailScan_eq_none.mp (unbroken part front some) inner
    rw [List.nil_append, recent_front front] at unseen
    exact unseen suffix
  · intro apart part front _
    cases seen : SyncPolicy.tailScan.sight? .checksum ([] ++ part) with
    | none => rfl
    | some inner => exact absurd (embeds_of_sight front seen) (apart inner)

theorem map_snd_completions (index : Nat) (frames : List Frame) : (completions index frames).map Prod.snd = frames := by
  induction frames generalizing index with
  | nil => rfl
  | cons frame rest ih => rw [completions, List.map_cons, ih]

end Frame

namespace Window

variable {window : Window}

/-- The first frame to be complete within another is handed out in its place. -/
theorem feedFrom_embedded (attends : window.Attends .checksum .tailScan []) {outer inner : Frame}
    (embeds : outer.Embeds inner) (index : Nat) (rest : Bytes) :
    ∃ (place : Nat) (first : Frame) (others : List (Nat × Frame)), outer.CompletesFirst first place ∧
      (window.feedFrom index (outer.wire .checksum ++ rest)).frames = (index + place, first) :: others := by
  have loud : ¬SyncPolicy.tailScan.Silent .checksum [] (outer.wire .checksum).dropLast :=
    fun silent => Frame.unbroken_tailScan.mp silent inner embeds
  obtain ⟨front, byte, back, first, split, silent, found⟩ := SyncPolicy.exists_first loud
  have inside : front ++ [byte] <+: (outer.wire .checksum).dropLast := ⟨back, by rw [split, List.append_assoc]; rfl⟩
  obtain ⟨behind, whole⟩ := inside.trans (List.dropLast_prefix _)
  obtain ⟨later, _, frames⟩ := feedFrom_first attends silent found index (behind ++ rest)
  have stream : outer.wire .checksum ++ rest = front ++ byte :: (behind ++ rest) := by
    rw [← whole, List.append_assoc, List.append_assoc]
    rfl
  rw [stream, frames]
  exact ⟨front.length, first, _, Frame.completesFirst_of_sight inside silent found, rfl⟩

theorem unbroken_of_frames (attends : window.Attends .checksum .tailScan []) {frames : List Frame} {index : Nat}
    (same : (window.feedFrom index (Frame.wires .checksum frames)).frames.map Prod.snd = frames) :
    ∀ outer ∈ frames, ∀ inner : Frame, ¬outer.Embeds inner := by
  induction frames generalizing window index with
  | nil => exact fun outer member => nomatch member
  | cons frame rest ih =>
    rw [Frame.wires_cons] at same
    -- the answer would be a frame within the frame, and so shorter than what it stands for
    have apart (inner : Frame) : ¬frame.Embeds inner := by
      intro embeds
      obtain ⟨place, first, others, complete, found⟩ :=
        feedFrom_embedded attends embeds index (Frame.wires .checksum rest)
      rw [found, List.map_cons] at same
      obtain ⟨rfl, _⟩ := List.cons.inj same
      exact Nat.lt_irrefl _ complete.ends.embeds.wireSize_lt
    obtain ⟨later, afresh, found⟩ :=
      feedFrom_wire attends (Frame.unbroken_tailScan.mpr apart) index (Frame.wires .checksum rest)
    rw [found, List.map_cons] at same
    exact List.forall_mem_cons.mpr ⟨apart, ih afresh (List.cons.inj same).2⟩

/-- On a clean line a window that looks at every offset answers as one that looks at its start only,
unless the bytes of a frame stand within another one: then of these the first to be complete is handed out instead,
with its last byte. -/
theorem tail_scan_exact (frames : List Frame) :
    let stream := Frame.wires .checksum frames
    let tail := (empty .checksum .tailScan).feed stream
    let head := (empty .checksum .headOnly).feed stream
    let apart (outer : Frame) := ∀ inner : Frame, ¬outer.Embeds inner
    (∀ frame : Frame, frame.encode .checksum = .ok (frame.wire .checksum)) ∧
    head.frames = Frame.completions 0 frames ∧
    (tail.frames.map Prod.snd = frames ↔ ∀ outer ∈ frames, apart outer) ∧
    (tail.frames = head.frames ↔ ∀ outer ∈ frames, apart outer) ∧
    ∀ front outer back, frames = front ++ outer :: back → (∀ frame ∈ front, apart frame) → ¬apart outer →
      ∃ place first, outer.CompletesFirst first place ∧
        Frame.completions 0 front ++ [((Frame.wires .checksum front).length + place, first)] <+: tail.frames := by
  intro stream tail head apart
  have start := attends_empty .checksum .tailScan
  have clean : head.frames = Frame.completions 0 frames :=
    feedFrom_whole (attends_empty .checksum .headOnly) (fun frame _ => frame.unbroken_headOnly) 0
  have complete (all : ∀ outer ∈ frames, apart outer) : tail.frames = Frame.completions 0 frames :=
    feedFrom_whole start (fun outer member => Frame.unbroken_tailScan.mpr (all outer member)) 0
  refine ⟨Frame.encode_checksum, clean, ⟨unbroken_of_frames start, ?_⟩,
    ⟨?_, fun all => (complete all).trans clean.symm⟩, ?_⟩
  · intro all
    rw [complete all]
    exact Frame.map_snd_completions 0 frames
  · intro same
    have answers : tail.frames.map Prod.snd = frames := by
      rw [same, clean]
      exact Frame.map_snd_completions 0 frames
    exact unbroken_of_frames start answers
  · rintro front outer back rfl all broken
    obtain ⟨inner, embeds⟩ := not_forall_not.mp broken
    obtain ⟨later, afresh, whole⟩ :=
      feedFrom_unbroken start (fun frame member => Frame.unbroken_tailScan.mpr (all frame member)) 0
        (outer.wire .checksum ++ Frame.wires .checksum back)
    obtain ⟨place, first, others, complete, found⟩ :=
      feedFrom_embedded afresh embeds (0 + (Frame.wires .checksum front).length) (Frame.wires .checksum back)
    refine ⟨place, first, complete, others, ?_⟩
    have split : stream = Frame.wires .checksum front ++ (outer.wire .checksum ++ Frame.wires .checksum back) := by
      rw [← Frame.wires_cons, ← Frame.wires_append]
    have answers : tail.frames =
        Frame.completions 0 front ++ ((Frame.wires .checksum front).length + place, first) :: others := by
      rw [Nat.zero_add] at found whole
      rw [← found, ← whole, ← split]
      rfl
    rw [answers, ← List.append_cons]

/-- A payload that is a frame itself, on a line without any noise. -/
theorem tail_scan_loses_outer :
    let inner : Frame :=
      { destination := 1, source := 2, flags := .none, ttl := 1, payload := [], payload_le := by decide }
    let outer : Frame :=
      { destination := 0x10, source := 0x20, flags := .none, ttl := 2, payload := [1, 0, 2, 0, 0, 1, 0xF9, 0xB6]
        payload_le := by decide }
    let stream := Frame.wires .checksum [outer]
    outer.payload = inner.wire .checksum ∧ inner ≠ outer ∧
      ((empty .checksum .tailScan).feed stream).frames = [(13, inner)] ∧
      ((empty .checksum .headOnly).feed stream).frames = [(15, outer)] := by
  decide +kernel

end Window

end Hopline

import Hopline.Proofs.Receive.Silence

/-! Recovery with the first whole frame. A window that looks at every offset finds a frame wherever
in it the frame begins, however full it is and whatever slides out of it meanwhile. Only another frame
can stand in the way: one that ends earlier, or a longer one that ends with it. -/

namespace Hopline

theorem wire_suffix_recent (heard : Bytes) (frame : Frame) :
    frame.wire .checksum <:+ recent (heard ++ frame.wire .checksum) := by
  have longest := frame.wireSize_le
  have length : (heard ++ frame.wire .checksum).length = heard.length + frame.wireSize := by
    rw [List.length_append, frame.length_wire]
  have inside : (heard ++ frame.wire .checksum).length - maxFrame ≤ heard.length := by omega
  rw [recent, List.drop_append_of_le_length inside]
  exact List.suffix_append _ _

/-- No frame but `frame` itself is seen while its bytes come in behind those held. -/
structure Frame.Unobscured (held : Bytes) (frame : Frame) : Prop where
  early : ∀ part, part <+: frame.wire .checksum → part ≠ [] → part ≠ frame.wire .checksum →
    ∀ span, span <:+ recent (held ++ part) → ∀ other : Frame, ¬other.Fills .checksum span
  longest : ∀ span, span <:+ recent (held ++ frame.wire .checksum) → frame.wireSize < span.length →
    ∀ other : Frame, ¬other.Fills .checksum span

namespace SyncPolicy

variable {heard : Bytes} {frame : Frame}

theorem tailScan_blind_iff :
    SyncPolicy.tailScan.sight? .checksum heard = none ↔
      ∀ span, span <:+ recent heard → ∀ other : Frame, ¬other.Fills .checksum span := by
  simp only [sight?_tailScan_eq_none, Frame.fills_checksum]
  constructor
  · rintro absent _ suffix other rfl
    exact absent other suffix
  · exact fun absent other suffix => absent _ suffix other rfl

theorem tailScan_sees_wire_iff :
    SyncPolicy.tailScan.sight? .checksum (heard ++ frame.wire .checksum) = some frame ↔
      ∀ span, span <:+ recent (heard ++ frame.wire .checksum) → frame.wireSize < span.length →
        ∀ other : Frame, ¬other.Fills .checksum span := by
  rw [sight?, Window.findSome?_spans, ← frame.length_wire .checksum]
  constructor
  · rintro ⟨span, _, fills, longest⟩
    obtain rfl := Frame.fills_checksum.mp fills
    exact longest
  · intro longest
    exact ⟨_, wire_suffix_recent heard frame, Frame.fills_checksum.mpr rfl, longest⟩

end SyncPolicy

namespace Window

variable {hooks : FrameHooks} {policy : SyncPolicy} {window : Window} {heard : Bytes}

theorem cleared_of_found {byte : UInt8} {frame : Frame} (found : (window.ingest byte).frame = some frame) :
    (window.ingest byte).window.bytes = [] ∧ (window.ingest byte).window.phase = .idle := by
  unfold ingest at found ⊢
  dsimp only at found ⊢
  split at found
  next => cases found
  next => exact ⟨rfl, rfl⟩

theorem feedFrom_last_iff (attends : window.Attends hooks policy heard) (front : Bytes) (last : UInt8) (frame : Frame)
    (index : Nat) :
    (window.feedFrom index (front ++ [last])).frames = [(index + front.length, frame)] ↔
      policy.Silent hooks heard front ∧ policy.sight? hooks (heard ++ (front ++ [last])) = some frame := by
  constructor
  · intro answer
    have silent : policy.Silent hooks heard front := by
      by_contra loud
      obtain ⟨before, byte, back, other, rfl, silent, found⟩ := SyncPolicy.exists_first loud
      obtain ⟨later, _, frames⟩ := feedFrom_first attends silent found index (back ++ [last])
      rw [List.append_assoc, List.cons_append, frames, List.length_append, List.length_cons] at answer
      obtain ⟨same, _⟩ := Prod.mk.inj (List.cons.inj answer).1
      omega
    refine ⟨silent, ?_⟩
    obtain ⟨nothing, still⟩ := feedFrom_silent attends silent index
    obtain ⟨found, _⟩ := still.ingest last
    rw [(feedFrom_append window index front [last]).1, nothing, feedFrom, found, List.append_assoc] at answer
    cases seen : policy.sight? hooks (heard ++ (front ++ [last])) with
    | none =>
      rw [seen] at answer
      cases answer
    | some other =>
      rw [seen] at answer
      obtain ⟨_, same⟩ := Prod.mk.inj (List.cons.inj answer).1
      rw [same]
  · rintro ⟨silent, found⟩
    obtain ⟨later, _, frames⟩ := feedFrom_first attends silent found index []
    exact frames

theorem cleared_of_last (attends : window.Attends hooks policy heard) {front : Bytes} {last : UInt8} {frame : Frame}
    (silent : policy.Silent hooks heard front) (found : policy.sight? hooks (heard ++ (front ++ [last])) = some frame)
    (index : Nat) :
    let reception := window.feedFrom index (front ++ [last])
    reception.window.bytes = [] ∧ reception.window.phase = .idle := by
  intro reception
  obtain ⟨_, still⟩ := feedFrom_silent attends silent index
  obtain ⟨answer, _⟩ := still.ingest last
  rw [List.append_assoc, found] at answer
  rw [show reception.window = _ from (feedFrom_append window index front [last]).2]
  exact cleared_of_found answer

theorem exists_attends_hearAll (hooks : FrameHooks) (policy : SyncPolicy) (hearings : List Hearing) :
    let window := (hearAll perform (empty hooks policy) hearings).1
    window.Attends hooks policy window.bytes := by
  obtain ⟨_, agrees⟩ := hearAll_related agrees_perform hearings (agrees_empty hooks policy)
  exact Attends.held ⟨agrees.hooks, agrees.policy, agrees.bytes⟩

end Window

theorem Frame.unobscured_iff {held : Bytes} {frame : Frame} {front : Bytes} {last : UInt8}
    (split : frame.wire .checksum = front ++ [last]) :
    frame.Unobscured held ↔ SyncPolicy.tailScan.Silent .checksum held front ∧
      SyncPolicy.tailScan.sight? .checksum (held ++ (front ++ [last])) = some frame := by
  have cut (part : Bytes) : part <+: front ↔ part <+: frame.wire .checksum ∧ part ≠ frame.wire .checksum := by
    rw [split, List.prefix_concat_iff]
    constructor
    · intro inside
      refine ⟨.inr inside, ?_⟩
      rintro rfl
      have length := inside.length_le
      rw [List.length_append, List.length_singleton] at length
      omega
    · rintro ⟨whole | inside, proper⟩
      · exact absurd whole proper
      · exact inside
  rw [← split, SyncPolicy.tailScan_sees_wire_iff]
  simp only [SyncPolicy.Silent, SyncPolicy.tailScan_blind_iff, cut]
  constructor
  · intro unobscured
    exact ⟨fun part inside some => unobscured.early part inside.1 some inside.2, unobscured.longest⟩
  · rintro ⟨early, longest⟩
    exact ⟨fun part inside some proper => early part ⟨inside, proper⟩ some, longest⟩

namespace Window

/-- Whatever a window has been through, the bytes of a frame yield just that frame, with the last of
them, and leave the window empty, if and only if no other frame is seen meanwhile. -/
theorem tail_scan_recovers_iff (hearings : List Hearing) (frame : Frame) :
    let window := (hearAll perform (empty .checksum .tailScan) hearings).1
    let reception := window.feed (frame.wire .checksum)
    frame.encode .checksum = .ok (frame.wire .checksum) ∧
    (reception.frames = [(frame.wireSize - 1, frame)] ∧ reception.window.bytes = [] ∧ reception.window.phase = .idle ↔
      frame.Unobscured window.bytes) := by
  intro window reception
  have attends : window.Attends .checksum .tailScan window.bytes := exists_attends_hearAll _ _ hearings
  obtain ⟨front, last, split, length⟩ := frame.exists_last .checksum
  have place : frame.wireSize - 1 = 0 + front.length := by omega
  have answers := feedFrom_last_iff attends front last frame 0
  refine ⟨frame.encode_checksum, ?_⟩
  rw [Frame.unobscured_iff split, ← answers, ← split, ← place]
  constructor
  · exact fun recovered => recovered.1
  · intro answer
    rw [place, split] at answer
    obtain ⟨silent, found⟩ := answers.mp answer
    have cleared := cleared_of_last attends silent found 0
    rw [← split] at answer cleared
    rw [place]
    exact ⟨answer, cleared⟩

example :
    let frame : Frame :=
      { destination := 1, source := 2, flags := .none, ttl := 1, payload := [], payload_le := by decide }
    ((empty .checksum .tailScan).feed ([0, 0, 0] ++ frame.wire .checksum)).frames = [(10, frame)] := by
  decide +kernel

end Window

end Hopline

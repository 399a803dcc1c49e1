import Hopline.Proofs.Frame.RoundTrip
import Hopline.Receive.Window

/-! What a search over spans finds. A span is a frame only as a whole, so the first span that
is one is the longest, and spans too short for any frame may be left out. -/

namespace Hopline

/-- The frame that a span is, from its first byte to its last. -/
def Frame.ofSpan? (hooks : FrameHooks) (span : Bytes) : Option Frame :=
  match Frame.decode hooks span with
  | .complete frame => if frame.wireSize = span.length then some frame else none
  | _ => none

/-- A span is exactly one frame. -/
structure Frame.Fills (hooks : FrameHooks) (frame : Frame) (span : Bytes) : Prop where
  complete : Frame.decode hooks span = .complete frame
  length : frame.wireSize = span.length

/-- True of a span that is as long as it announces and that the hook turns down all the same. -/
def FrameHooks.rejects (hooks : FrameHooks) (span : Bytes) : Bool :=
  match Header.peek span with
  | none => false
  | some header => decide (header.frameLength = span.length) && !hooks.validate span

variable {hooks : FrameHooks} {span : Bytes} {spans : List Bytes}

theorem Frame.ofSpan?_eq_some {frame : Frame} : Frame.ofSpan? hooks span = some frame ↔ frame.Fills hooks span := by
  unfold Frame.ofSpan?
  constructor
  · intro found
    split at found
    next other complete =>
      split at found
      next whole =>
        cases found
        exact ⟨complete, whole⟩
      next => cases found
    next => cases found
  · rintro ⟨complete, whole⟩
    simp only [complete, whole, ↓reduceIte]

/-- Under the checksum a frame fills its own encoding and no other span. -/
theorem Frame.fills_checksum {frame : Frame} : frame.Fills .checksum span ↔ span = frame.wire .checksum := by
  constructor
  · rintro ⟨complete, whole⟩
    apply ((decode_checksum_eq_complete.mp complete).eq_of_length ?_).symm
    rw [frame.length_wire]
    exact whole
  · rintro rfl
    exact ⟨decode_checksum_eq_complete.mpr List.prefix_rfl, (frame.length_wire .checksum).symm⟩

theorem Frame.ofSpan?_of_incomplete (incomplete : Frame.decode hooks span = .incomplete) :
    Frame.ofSpan? hooks span = none := by
  unfold Frame.ofSpan?
  rw [incomplete]

/-- The hook alone decides about a source that holds all that it announces. -/
theorem Frame.exists_decode (hooks : FrameHooks) {source : Bytes} (whole : ¬Frame.Cut source) :
    ∃ (header : Header) (frame : Frame), Header.peek source = some header ∧ frame.wireSize = header.frameLength ∧
      Frame.decode hooks source =
        if hooks.validate (source.take header.frameLength) then .complete frame
        else .refused (.codec .invalidData) header.frameLength := by
  obtain ⟨header, payload, trailer, rest, found, _, sized, fits, ended⟩ := exists_parts whole
  have decoded := decode_of_append hooks sized fits ended rest
  have peeked : Header.peek source = some header := by
    rw [found, List.append_assoc, List.append_assoc]
    exact Header.peek_bytes (sized ▸ fits) _
  have long : (header.bytes ++ payload ++ trailer).length = header.frameLength := by
    rw [List.length_append, List.length_append, header.length_bytes, sized, ended, Header.frameLength]
  have span : source.take header.frameLength = header.bytes ++ payload ++ trailer := by
    rw [found]
    exact List.take_left' long
  have size : (ofParts header payload fits).wireSize = header.frameLength := by
    rw [Header.frameLength, ← sized]
    rfl
  refine ⟨header, ofParts header payload fits, peeked, size, ?_⟩
  rw [span]
  conv => lhs; rw [found]
  exact decoded

theorem Frame.frameLength_of_cut {source : Bytes} {header : Header} (cut : Frame.Cut source)
    (peeked : Header.peek source = some header) : source.length < header.frameLength := by
  by_cases short : source.length < headerSize
  · simp only [Header.peek, short, ↓reduceIte] at peeked
    cases peeked
  · obtain ⟨same, peeked', _, size, _⟩ := exists_peek (Nat.le_of_not_lt short)
    obtain rfl := Option.some.inj (peeked.symm.trans peeked')
    rcases cut with missing | missing
    · exact absurd missing short
    · rw [← size] at missing
      rw [Header.frameLength, headerSize, trailerSize]
      omega

/-- What a span may be taken for. -/
inductive Verdict.Holds (hooks : FrameHooks) (span : Bytes) : Verdict → Prop
  | unfit (found : Frame.ofSpan? hooks span = none) (passed : hooks.rejects span = false) : Holds hooks span .unfit
  | rejected (events : List Event) (found : Frame.ofSpan? hooks span = none) (refused : hooks.rejects span = true) :
    Holds hooks span (.rejected events)
  | accepted (frame : Frame) (found : Frame.ofSpan? hooks span = some frame) (passed : hooks.rejects span = false) :
    Holds hooks span (.accepted frame)

theorem Verdict.ofSpan_of_cut (cut : Frame.Cut span) : Verdict.ofSpan hooks span = .unfit := by
  unfold Verdict.ofSpan
  split
  next => rfl
  next header peeked => exact if_pos (Frame.frameLength_of_cut cut peeked).ne'

theorem Verdict.holds_ofSpan (hooks : FrameHooks) (span : Bytes) :
    Verdict.Holds hooks span (Verdict.ofSpan hooks span) := by
  by_cases cut : Frame.Cut span
  · rw [Verdict.ofSpan_of_cut cut]
    refine .unfit (Frame.ofSpan?_of_incomplete (Frame.decode_of_cut hooks cut)) ?_
    unfold FrameHooks.rejects
    split
    next => rfl
    next header peeked =>
      rw [decide_eq_false (Frame.frameLength_of_cut cut peeked).ne', Bool.false_and]
  · obtain ⟨header, frame, peeked, size, decoded⟩ := Frame.exists_decode hooks cut
    unfold Verdict.ofSpan
    simp only [peeked]
    by_cases fits : header.frameLength = span.length
    · rw [fits, List.take_length] at decoded
      cases valid : hooks.validate span with
      | true =>
        simp only [valid, ↓reduceIte] at decoded
        simp only [fits, decoded, ne_eq, not_true_eq_false, ↓reduceIte]
        refine .accepted frame (Frame.ofSpan?_eq_some.mpr ⟨decoded, size.trans fits⟩) ?_
        simp only [FrameHooks.rejects, peeked, valid, Bool.not_true, Bool.and_false]
      | false =>
        simp only [valid, Bool.false_eq_true, ↓reduceIte] at decoded
        simp only [fits, decoded, ne_eq, not_true_eq_false, ↓reduceIte]
        refine .rejected _ ?_ ?_
        · simp only [Frame.ofSpan?, decoded]
        · simp only [FrameHooks.rejects, peeked, fits, valid, decide_true, Bool.not_false, Bool.and_self]
    · simp only [fits, ne_eq, not_false_eq_true, ↓reduceIte]
      refine .unfit ?_ ?_
      · rw [Option.eq_none_iff_forall_ne_some]
        intro other found
        obtain ⟨complete, length⟩ := Frame.ofSpan?_eq_some.mp found
        rw [decoded] at complete
        split at complete
        next =>
          cases complete
          exact fits (size.symm.trans length)
        next => cases complete
      · simp only [FrameHooks.rejects, peeked, fits, decide_false, Bool.false_and]

namespace Search

/-- The first span that is a frame is found, and the longer ones that the hook turned down are counted. -/
theorem run_eq (hooks : FrameHooks) (shrinking : spans.Pairwise fun long short => short.length < long.length) :
    (run hooks spans).frame = spans.findSome? (Frame.ofSpan? hooks) ∧
      (run hooks spans).rejected = spans.countP fun span =>
        hooks.rejects span && (run hooks spans).frame.all fun frame => decide (frame.wireSize < span.length) := by
  induction spans with
  | nil => exact ⟨rfl, rfl⟩
  | cons span rest ih =>
    obtain ⟨shorter, shrinking⟩ := List.pairwise_cons.mp shrinking
    obtain ⟨frame, rejected⟩ := ih shrinking
    have verdict := Verdict.holds_ofSpan hooks span
    unfold run
    generalize Verdict.ofSpan hooks span = judged at verdict
    cases verdict with
    | unfit found passed =>
      dsimp only
      rw [List.findSome?_cons_of_isNone (by rw [found]; rfl), List.countP_cons_of_neg (by simp [passed])]
      exact ⟨frame, rejected⟩
    | accepted frame found passed =>
      dsimp only
      rw [List.findSome?_cons, found]
      refine ⟨rfl, ?_⟩
      rw [List.countP_cons_of_neg (by simp [passed]), eq_comm, List.countP_eq_zero]
      intro other member
      have less := shorter other member
      rw [← (Frame.ofSpan?_eq_some.mp found).length] at less
      simp only [Option.all_some, Bool.and_eq_true, decide_eq_true_eq, not_and, Nat.not_lt]
      exact fun _ => less.le
    | rejected events found refused =>
      dsimp only
      have longer : (run hooks rest).frame.all (fun frame => decide (frame.wireSize < span.length)) = true := by
        rw [Option.all_eq_true]
        intro other later
        rw [frame] at later
        obtain ⟨inside, member, fills⟩ := List.exists_of_findSome?_eq_some later
        rw [(Frame.ofSpan?_eq_some.mp fills).length, decide_eq_true_eq]
        exact shorter inside member
      rw [List.findSome?_cons_of_isNone (by rw [found]; rfl), List.countP_cons_of_pos (by simp [refused, longer])]
      exact ⟨frame, congrArg (· + 1) rejected⟩

theorem run_of_short (short : ∀ span ∈ spans, span.length < headerSize + trailerSize) :
    run hooks spans = run hooks [] := by
  induction spans with
  | nil => rfl
  | cons span rest ih =>
    have cut : Frame.Cut span := .inr (Nat.lt_add_right _ (short span List.mem_cons_self))
    simp only [run, Verdict.ofSpan_of_cut cut]
    exact ih fun other member => short other (List.mem_cons_of_mem span member)

theorem run_cons (span : Bytes) {rest other : List Bytes} (same : run hooks rest = run hooks other) :
    run hooks (span :: rest) = run hooks (span :: other) := by
  rw [run, run, same]

/-- Looking at each offset from which a frame could reach the end is looking at all suffixes. -/
theorem run_tails (hooks : FrameHooks) (bytes : Bytes) :
    run hooks bytes.tails = run hooks (Window.candidates .tailScan bytes) := by
  induction bytes with
  | nil => rfl
  | cons byte rest ih =>
    rw [List.tails_cons]
    by_cases short : rest.length < headerSize + trailerSize
    · have lone : Window.candidates .tailScan (byte :: rest) = [byte :: rest] := by
        have none : (byte :: rest).length - (headerSize + trailerSize) + 1 = 1 := by
          rw [List.length_cons]
          omega
        rw [Window.candidates, none]
        rfl
      rw [lone]
      apply run_cons
      apply run_of_short
      intro span member
      exact ((List.mem_tails _ _).mp member).length_le.trans_lt short
    · have more : Window.candidates .tailScan (byte :: rest) =
          (byte :: rest) :: Window.candidates .tailScan rest := by
        have one : (byte :: rest).length - (headerSize + trailerSize) + 1 =
            rest.length - (headerSize + trailerSize) + 1 + 1 := by
          rw [List.length_cons]
          omega
        rw [Window.candidates, one, List.range_succ_eq_map, List.map_cons, List.map_map]
        rfl
      rw [more]
      exact run_cons _ ih

end Search

theorem pairwise_tails (bytes : Bytes) : bytes.tails.Pairwise fun long short => short.length < long.length := by
  induction bytes with
  | nil => exact List.pairwise_singleton _ _
  | cons byte rest ih =>
    rw [List.tails_cons, List.pairwise_cons]
    refine ⟨?_, ih⟩
    intro span member
    exact Nat.lt_succ_of_le ((List.mem_tails _ _).mp member).length_le

theorem findSome?_tails {bytes : Bytes} {frame : Frame} :
    bytes.tails.findSome? (Frame.ofSpan? hooks) = some frame ↔
      ∃ span, span <:+ bytes ∧ frame.Fills hooks span ∧
        ∀ longer, longer <:+ bytes → span.length < longer.length → ∀ other : Frame, ¬other.Fills hooks longer := by
  have shrinking := pairwise_tails bytes
  constructor
  · intro found
    obtain ⟨before, span, after, split, fills, none⟩ := List.findSome?_eq_some_iff.mp found
    have member : span ∈ bytes.tails := split ▸ List.mem_append_right _ List.mem_cons_self
    refine ⟨span, (List.mem_tails _ _).mp member, Frame.ofSpan?_eq_some.mp fills, ?_⟩
    intro longer suffix more other filled
    have place := (List.mem_tails _ _).mpr suffix
    rw [split] at place shrinking
    rcases List.mem_append.mp place with early | late
    · have missing := none longer early
      rw [Frame.ofSpan?_eq_some.mpr filled] at missing
      cases missing
    · obtain ⟨shorter, _⟩ := List.pairwise_cons.mp (List.pairwise_append.mp shrinking).2.1
      rcases List.mem_cons.mp late with rfl | late
      · exact Nat.lt_irrefl _ more
      · exact Nat.lt_asymm more (shorter longer late)
  · rintro ⟨span, suffix, fills, longest⟩
    obtain ⟨before, after, split⟩ := List.append_of_mem ((List.mem_tails _ _).mpr suffix)
    refine List.findSome?_eq_some_iff.mpr ⟨before, span, after, split, Frame.ofSpan?_eq_some.mpr fills, ?_⟩
    intro longer early
    have member : longer ∈ bytes.tails := split ▸ List.mem_append_left _ early
    rw [split] at shrinking
    have more := (List.pairwise_append.mp shrinking).2.2 longer early span List.mem_cons_self
    rw [Option.eq_none_iff_forall_ne_some]
    intro other found
    exact longest longer ((List.mem_tails _ _).mp member) more other (Frame.ofSpan?_eq_some.mp found)

end Hopline

import Hopline.Proofs.Receive.Search

/-! The receive window against a plain account of the stream. The account keeps every byte heard
since the window was last cleared and looks at the last ones afresh each time; the window, which
keeps no more than a full frame, answers alike on every sequence of bytes and resets. -/

namespace Hopline

/-- One thing done to a receiver. -/
inductive Hearing
  | ingest (byte : UInt8)
  | reset
deriving DecidableEq

/-- Does one thing after the other; each of them may yield a frame. -/
def hearAll {σ : Type} (perform : σ → Hearing → σ × Option Frame) : σ → List Hearing → σ × List (Option Frame)
  | state, [] => (state, [])
  | state, hearing :: rest =>
    let first := perform state hearing
    let later := hearAll perform first.1 rest
    (later.1, first.2 :: later.2)

theorem hearAll_related {σ τ : Type} {left : σ → Hearing → σ × Option Frame} {right : τ → Hearing → τ × Option Frame}
    {related : σ → τ → Prop} (step : ∀ state other hearing, related state other →
      (left state hearing).2 = (right other hearing).2 ∧ related (left state hearing).1 (right other hearing).1)
    (hearings : List Hearing) {state : σ} {other : τ} (start : related state other) :
    (hearAll left state hearings).2 = (hearAll right other hearings).2 ∧
      related (hearAll left state hearings).1 (hearAll right other hearings).1 := by
  induction hearings generalizing state other with
  | nil => exact ⟨rfl, start⟩
  | cons hearing rest ih =>
    obtain ⟨alike, kept⟩ := step state other hearing start
    obtain ⟨answers, final⟩ := ih kept
    exact ⟨List.cons_eq_cons.mpr ⟨alike, answers⟩, final⟩

def Window.perform (window : Window) : Hearing → Window × Option Frame
  | .ingest byte => ((window.ingest byte).window, (window.ingest byte).frame)
  | .reset => (window.reset.1, none)

/-- The last bytes of a stream, as many as the longest frame has. -/
def recent (heard : Bytes) : Bytes := heard.drop (heard.length - maxFrame)

/-- The spans in which a policy looks for a frame. -/
def SyncPolicy.spans (policy : SyncPolicy) (bytes : Bytes) : List Bytes :=
  match policy with
  | .headOnly => [bytes]
  | .tailScan => bytes.tails

/-- What there is to tell of a stream. -/
structure Account where
  /-- Every byte since the last clear. -/
  heard : Bytes
  /-- Bytes that were too old to be recent by the last clear. -/
  missed : Nat
  /-- Frames found. -/
  frames : Nat
  /-- Spans turned down. -/
  rejected : Nat

namespace Account

def silent : Account := { heard := [], missed := 0, frames := 0, rejected := 0 }

/-- Bytes that have grown too old to be recent. -/
def overflowed (account : Account) : Nat := account.missed + (account.heard.length - maxFrame)

/-- Begins afresh. -/
def clear (account : Account) : Account := { account with heard := [], missed := account.overflowed }

/-- The spans longer than the frame found, or all spans, that are as long as they announce and
turned down all the same. -/
def countRejected (hooks : FrameHooks) (found : Option Frame) (spans : List Bytes) : Nat :=
  spans.countP fun span => hooks.rejects span && found.all fun frame => decide (frame.wireSize < span.length)

def hear (hooks : FrameHooks) (policy : SyncPolicy) (account : Account) (byte : UInt8) : Account × Option Frame :=
  let heard := account.heard ++ [byte]
  let spans := policy.spans (recent heard)
  let found := spans.findSome? (Frame.ofSpan? hooks)
  let grown := { account with heard, rejected := account.rejected + countRejected hooks found spans }
  match found with
  | none => (grown, none)
  | some frame => ({ grown.clear with frames := account.frames + 1 }, some frame)

def perform (hooks : FrameHooks) (policy : SyncPolicy) (account : Account) : Hearing → Account × Option Frame
  | .ingest byte => account.hear hooks policy byte
  | .reset => (account.clear, none)

theorem hear_found (hooks : FrameHooks) (policy : SyncPolicy) (account : Account) (byte : UInt8) :
    (account.hear hooks policy byte).2 =
      (policy.spans (recent (account.heard ++ [byte]))).findSome? (Frame.ofSpan? hooks) := by
  unfold hear
  dsimp only
  split
  next none => exact none.symm
  next frame found => exact found.symm

theorem hear_rejected (hooks : FrameHooks) (policy : SyncPolicy) (account : Account) (byte : UInt8) :
    let spans := policy.spans (recent (account.heard ++ [byte]))
    (account.hear hooks policy byte).1.rejected =
      account.rejected + countRejected hooks (spans.findSome? (Frame.ofSpan? hooks)) spans := by
  unfold hear
  dsimp only
  split <;> rfl

theorem frames_perform (hooks : FrameHooks) (policy : SyncPolicy) (account : Account) (hearing : Hearing) :
    (account.perform hooks policy hearing).1.frames =
      account.frames + (account.perform hooks policy hearing).2.toList.length := by
  cases hearing with
  | reset => rfl
  | ingest byte =>
    unfold perform hear
    dsimp only
    split <;> rfl

theorem frames_hearAll (hooks : FrameHooks) (policy : SyncPolicy) (account : Account) (hearings : List Hearing) :
    (hearAll (perform hooks policy) account hearings).1.frames =
      account.frames + (hearAll (perform hooks policy) account hearings).2.countP Option.isSome := by
  induction hearings generalizing account with
  | nil => rfl
  | cons hearing rest ih =>
    rw [hearAll]
    dsimp only
    rw [ih, frames_perform, List.countP_cons]
    cases (account.perform hooks policy hearing).2 <;>
      simp only [Option.toList_none, Option.toList_some, List.length_nil, List.length_singleton, Option.isSome_none,
        Option.isSome_some, Bool.false_eq_true, ↓reduceIte] <;> omega

end Account

/-- A window that holds what the account says. -/
structure Window.Agrees (hooks : FrameHooks) (policy : SyncPolicy) (window : Window) (account : Account) : Prop where
  hooks : window.hooks = hooks
  policy : window.policy = policy
  bytes : window.bytes = recent account.heard
  phase : window.phase = if account.heard = [] then .idle else .accumulating
  frames : window.stats.frames = UInt32.ofNat account.frames
  rejected : window.stats.rejected = UInt32.ofNat account.rejected
  overflowed : window.stats.overflowed = UInt32.ofNat account.overflowed

theorem length_recent (heard : Bytes) : (recent heard).length = min heard.length maxFrame := by
  rw [recent, List.length_drop]
  omega

theorem recent_suffix (heard : Bytes) : recent heard <:+ heard := List.drop_suffix _ _

theorem recent_of_room {heard : Bytes} (room : heard.length < maxFrame) (byte : UInt8) :
    recent (heard ++ [byte]) = recent heard ++ [byte] := by
  have whole : heard.length - maxFrame = 0 := by omega
  have grown : (heard ++ [byte]).length - maxFrame = 0 := by
    rw [List.length_append, List.length_singleton]
    omega
  rw [recent, recent, whole, grown, List.drop_zero, List.drop_zero]

theorem recent_of_full {heard : Bytes} (full : maxFrame ≤ heard.length) (byte : UInt8) :
    recent (heard ++ [byte]) = (recent heard).tail ++ [byte] := by
  have older : (heard ++ [byte]).length - maxFrame = heard.length - maxFrame + 1 := by
    rw [List.length_append, List.length_singleton]
    omega
  have inside : heard.length - maxFrame + 1 ≤ heard.length := by
    have positive : 0 < maxFrame := by decide
    omega
  rw [recent, older, List.drop_append_of_le_length inside, recent, List.tail_drop]

namespace Window

variable {hooks : FrameHooks} {policy : SyncPolicy} {window : Window} {account : Account}

theorem Agrees.clear (agrees : window.Agrees hooks policy account) : window.clear.Agrees hooks policy account.clear :=
  ⟨agrees.hooks, agrees.policy, rfl, rfl, agrees.frames, agrees.rejected, agrees.overflowed⟩

theorem hooks_push (window : Window) (byte : UInt8) : (window.push byte).hooks = window.hooks := by
  unfold push
  split <;> rfl

theorem policy_push (window : Window) (byte : UInt8) : (window.push byte).policy = window.policy := by
  unfold push
  split <;> rfl

theorem bytes_push {heard : Bytes} (held : window.bytes = recent heard) (byte : UInt8) :
    (window.push byte).bytes = recent (heard ++ [byte]) := by
  have length : window.bytes.length = min heard.length maxFrame := held ▸ length_recent heard
  unfold push
  split
  next full => rw [recent_of_full (by omega), ← held]
  next room => rw [recent_of_room (by omega), ← held]

theorem Agrees.push (agrees : window.Agrees hooks policy account) (byte : UInt8) :
    (window.push byte).Agrees hooks policy { account with heard := account.heard ++ [byte] } := by
  have bytes := bytes_push agrees.bytes byte
  have length : window.bytes.length = min account.heard.length maxFrame :=
    agrees.bytes ▸ length_recent account.heard
  have grown : ({ account with heard := account.heard ++ [byte] } : Account).overflowed =
      account.missed + (account.heard.length + 1 - maxFrame) := by
    rw [Account.overflowed, List.length_append, List.length_singleton]
  have phase : ReceivePhase.accumulating = if account.heard ++ [byte] = [] then .idle else .accumulating := by
    rw [if_neg (List.append_ne_nil_of_right_ne_nil _ (List.cons_ne_nil _ _))]
  by_cases full : window.bytes.length = maxFrame
  · rw [Window.push, if_pos full] at bytes ⊢
    refine ⟨agrees.hooks, agrees.policy, bytes, phase, agrees.frames, agrees.rejected, ?_⟩
    have more : account.missed + (account.heard.length + 1 - maxFrame) = account.overflowed + 1 := by
      rw [Account.overflowed]
      omega
    rw [grown, more, UInt32.ofNat_add, ← agrees.overflowed]
    rfl
  · rw [Window.push, if_neg full] at bytes ⊢
    refine ⟨agrees.hooks, agrees.policy, bytes, phase, agrees.frames, agrees.rejected, ?_⟩
    have same : account.missed + (account.heard.length + 1 - maxFrame) = account.overflowed := by
      rw [Account.overflowed]
      omega
    rw [grown, same]
    exact agrees.overflowed

theorem search_candidates (hooks : FrameHooks) (policy : SyncPolicy) (bytes : Bytes) :
    let search := Search.run hooks (candidates policy bytes)
    search.frame = (policy.spans bytes).findSome? (Frame.ofSpan? hooks) ∧
      search.rejected = Account.countRejected hooks search.frame (policy.spans bytes) := by
  cases policy with
  | headOnly => exact Search.run_eq hooks (List.pairwise_singleton _ bytes)
  | tailScan =>
    have found := Search.run_eq hooks (pairwise_tails bytes)
    rw [Search.run_tails] at found
    exact found

theorem agrees_ingest (agrees : window.Agrees hooks policy account) (byte : UInt8) :
    (window.ingest byte).frame = (account.hear hooks policy byte).2 ∧
      (window.ingest byte).window.Agrees hooks policy (account.hear hooks policy byte).1 := by
  have held := agrees.push byte
  obtain ⟨found, rejected⟩ := search_candidates hooks policy (recent (account.heard ++ [byte]))
  unfold ingest Account.hear
  dsimp only
  rw [held.hooks, held.policy, held.bytes]
  generalize Search.run hooks (candidates policy (recent (account.heard ++ [byte]))) = search at found rejected
  rw [← found]
  have counted : (window.push byte).stats.rejected + UInt32.ofNat search.rejected =
      UInt32.ofNat (account.rejected +
        Account.countRejected hooks search.frame (policy.spans (recent (account.heard ++ [byte])))) := by
    rw [UInt32.ofNat_add, ← rejected]
    exact congrArg (· + _) held.rejected
  cases finding : search.frame with
  | none =>
    rw [finding] at counted
    exact ⟨rfl, rfl, rfl, rfl, held.phase, held.frames, counted, held.overflowed⟩
  | some frame =>
    rw [finding] at counted
    refine ⟨rfl, rfl, rfl, rfl, rfl, ?_, counted, held.overflowed⟩
    rw [UInt32.ofNat_add]
    exact congrArg (· + 1) held.frames

theorem agrees_perform (window : Window) (account : Account) (hearing : Hearing)
    (agrees : window.Agrees hooks policy account) :
    (window.perform hearing).2 = (account.perform hooks policy hearing).2 ∧
      (window.perform hearing).1.Agrees hooks policy (account.perform hooks policy hearing).1 := by
  cases hearing with
  | ingest byte => exact agrees_ingest agrees byte
  | reset => exact ⟨rfl, agrees.clear⟩

theorem agrees_empty (hooks : FrameHooks) (policy : SyncPolicy) : (empty hooks policy).Agrees hooks policy .silent :=
  ⟨rfl, rfl, rfl, rfl, rfl, rfl, rfl⟩

theorem findSome?_spans {bytes : Bytes} {frame : Frame} :
    (policy.spans bytes).findSome? (Frame.ofSpan? hooks) = some frame ↔
      match policy with
      | .headOnly => frame.Fills hooks bytes
      | .tailScan => ∃ span, span <:+ bytes ∧ frame.Fills hooks span ∧
          ∀ longer, longer <:+ bytes → span.length < longer.length → ∀ other : Frame, ¬other.Fills hooks longer := by
  cases policy with
  | headOnly =>
    rw [SyncPolicy.spans, List.findSome?_singleton]
    exact Frame.ofSpan?_eq_some
  | tailScan => exact findSome?_tails

theorem exists_span_of_find {bytes : Bytes} {frame : Frame}
    (found : (policy.spans bytes).findSome? (Frame.ofSpan? hooks) = some frame) :
    ∃ span, span <:+ bytes ∧ frame.Fills hooks span := by
  rw [findSome?_spans] at found
  cases policy with
  | headOnly => exact ⟨bytes, List.suffix_refl _, found⟩
  | tailScan =>
    obtain ⟨span, suffix, fills, _⟩ := found
    exact ⟨span, suffix, fills⟩

/-- The window is a window on the stream. Whatever was heard and however often it was cleared, it
answers as the account does, holds the last bytes heard since, has counted what was older, and
finds with the next byte the frame that its policy looks for. -/
theorem refines_account (hooks : FrameHooks) (policy : SyncPolicy) (hearings : List Hearing) :
    let run := hearAll perform (empty hooks policy) hearings
    let plain := hearAll (Account.perform hooks policy) .silent hearings
    let window := run.1
    let account := plain.1
    run.2 = plain.2 ∧
    window.length = min account.heard.length 71 ∧
    window.bytes = recent account.heard ∧
    window.phase = (if account.heard = [] then .idle else .accumulating) ∧
    window.stats.overflowed.toNat = account.overflowed % 2 ^ 32 ∧
    window.stats.frames.toNat = run.2.countP Option.isSome % 2 ^ 32 ∧
    window.stats.rejected.toNat = account.rejected % 2 ^ 32 ∧
    ∀ byte : UInt8,
      let held := recent (account.heard ++ [byte])
      let next := window.ingest byte
      (∀ frame, next.frame = some frame ↔
        match policy with
        | .headOnly => frame.Fills hooks held
        | .tailScan => ∃ span, span <:+ held ∧ frame.Fills hooks span ∧
            ∀ longer, longer <:+ held → span.length < longer.length → ∀ other : Frame, ¬other.Fills hooks longer) ∧
      next.window.stats.rejected = window.stats.rejected + UInt32.ofNat ((policy.spans held).countP fun span =>
        hooks.rejects span && next.frame.all fun frame => decide (frame.wireSize < span.length)) := by
  intro run plain window account
  obtain ⟨alike, agrees⟩ := hearAll_related agrees_perform hearings (agrees_empty hooks policy)
  have frames : account.frames = run.2.countP Option.isSome := by
    rw [show run.2 = plain.2 from alike]
    exact (Account.frames_hearAll hooks policy .silent hearings).trans (Nat.zero_add _)
  refine ⟨alike, ?_, agrees.bytes, agrees.phase, ?_, ?_, ?_, ?_⟩
  · exact (congrArg List.length agrees.bytes).trans (length_recent account.heard)
  · exact (congrArg UInt32.toNat agrees.overflowed).trans UInt32.toNat_ofNat'
  · rw [← frames]
    exact (congrArg UInt32.toNat agrees.frames).trans UInt32.toNat_ofNat'
  · exact (congrArg UInt32.toNat agrees.rejected).trans UInt32.toNat_ofNat'
  · intro byte held next
    obtain ⟨found, after⟩ := agrees_ingest agrees byte
    have answer : next.frame = (policy.spans held).findSome? (Frame.ofSpan? hooks) :=
      found.trans (Account.hear_found hooks policy account byte)
    refine ⟨?_, ?_⟩
    · intro frame
      rw [answer]
      exact findSome?_spans
    · calc next.window.stats.rejected
          = UInt32.ofNat (account.rejected +
              Account.countRejected hooks ((policy.spans held).findSome? (Frame.ofSpan? hooks)) (policy.spans held)) :=
            after.rejected.trans (congrArg _ (Account.hear_rejected hooks policy account byte))
        _ = window.stats.rejected + UInt32.ofNat (Account.countRejected hooks next.frame (policy.spans held)) := by
            rw [UInt32.ofNat_add, ← answer, ← agrees.rejected]

end Window

end Hopline

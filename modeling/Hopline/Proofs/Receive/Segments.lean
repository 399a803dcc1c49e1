import Hopline.Proofs.Receive.Stream

/-! Every frame that a receiver hands out is a stretch of the stream, and no two of them overlap.
What was heard before a frame was found, or before a reset, is not looked at again. -/

namespace Hopline

def Hearing.byte? : Hearing → Option UInt8
  | .ingest byte => some byte
  | .reset => none

/-- The stream as it came in. -/
def ingested (hearings : List Hearing) : Bytes := hearings.filterMap Hearing.byte?

/-- A point from which a receiver starts afresh. -/
inductive Renewal
  /-- A frame was found with the byte of this index. -/
  | found (last : Nat) (frame : Frame)
  /-- There was a reset, and the byte of this index came next. -/
  | reset (next : Nat)

namespace Renewal

def start : Renewal → Nat
  | .found last frame => last + 1 - frame.wireSize
  | .reset next => next

def stop : Renewal → Nat
  | .found last _ => last + 1
  | .reset next => next

def frame? : Renewal → Option Frame
  | .found _ frame => some frame
  | .reset _ => none

/-- A frame encodes to the very bytes of the stream that went into it. -/
def Genuine (stream : Bytes) : Renewal → Prop
  | .found last frame =>
    last < stream.length ∧ frame.wireSize ≤ last + 1 ∧
      frame.encode .checksum = .ok ((stream.take (last + 1)).drop (last + 1 - frame.wireSize))
  | .reset _ => True

theorem start_le_stop (renewal : Renewal) : renewal.start ≤ renewal.stop := by
  cases renewal with
  | found last frame => exact Nat.sub_le _ _
  | reset next => exact Nat.le_refl _

end Renewal

/-- The renewals of a run, from a given byte on; each thing done comes with its answer. -/
def renewalsFrom (index : Nat) : List (Hearing × Option Frame) → List Renewal
  | [] => []
  | (.ingest _, none) :: rest => renewalsFrom (index + 1) rest
  | (.ingest _, some frame) :: rest => .found index frame :: renewalsFrom (index + 1) rest
  | (.reset, _) :: rest => .reset index :: renewalsFrom index rest

/-- Renewals one behind the other, each of them genuine and none reaching back before `floor`. -/
inductive Renewal.Laid (stream : Bytes) : (floor : Nat) → List Renewal → Prop
  | nil {floor : Nat} : Laid stream floor []
  | cons {floor : Nat} {renewal : Renewal} {rest : List Renewal} (above : floor ≤ renewal.start)
    (genuine : renewal.Genuine stream) (later : Laid stream renewal.stop rest) : Laid stream floor (renewal :: rest)

namespace Renewal.Laid

variable {stream : Bytes} {floor : Nat} {renewals : List Renewal}

theorem above (laid : Laid stream floor renewals) : ∀ renewal ∈ renewals, floor ≤ renewal.start := by
  induction laid with
  | nil => exact fun renewal member => nomatch member
  | @cons floor first rest above genuine later ih =>
    intro renewal member
    rcases List.mem_cons.mp member with rfl | member
    · exact above
    · exact above.trans (first.start_le_stop.trans (ih renewal member))

theorem apart (laid : Laid stream floor renewals) :
    renewals.Pairwise fun earlier later => earlier.stop ≤ later.start := by
  induction laid with
  | nil => exact .nil
  | cons above genuine later ih => exact .cons later.above ih

theorem genuine (laid : Laid stream floor renewals) : ∀ renewal ∈ renewals, renewal.Genuine stream := by
  induction laid with
  | nil => exact fun renewal member => nomatch member
  | cons above genuine later ih =>
    intro renewal member
    rcases List.mem_cons.mp member with rfl | member
    · exact genuine
    · exact ih renewal member

end Renewal.Laid

theorem countP_covering_le_one {renewals : List Renewal}
    (apart : renewals.Pairwise fun earlier later => earlier.stop ≤ later.start) (index : Nat) :
    (renewals.countP fun renewal => renewal.start ≤ index ∧ index < renewal.stop) ≤ 1 := by
  induction apart with
  | nil => exact Nat.zero_le _
  | @cons renewal rest before apart ih =>
    by_cases inside : renewal.start ≤ index ∧ index < renewal.stop
    · have others : (rest.countP fun renewal => renewal.start ≤ index ∧ index < renewal.stop) = 0 := by
        rw [List.countP_eq_zero]
        intro other member
        have behind := before other member
        simp only [decide_eq_true_eq]
        omega
      rw [List.countP_cons_of_pos (by simpa using inside), others]
    · rw [List.countP_cons_of_neg (by simpa using inside)]
      exact ih

namespace Account

variable {policy : SyncPolicy} {account : Account} {past : Bytes} {floor : Nat}

theorem hear_cases (hooks : FrameHooks) (policy : SyncPolicy) (account : Account) (byte : UInt8) :
    (account.hear hooks policy byte).2 = none ∧
        (account.hear hooks policy byte).1.heard = account.heard ++ [byte] ∨
      ∃ frame span, (account.hear hooks policy byte).2 = some frame ∧ (account.hear hooks policy byte).1.heard = [] ∧
        span <:+ account.heard ++ [byte] ∧ frame.Fills hooks span := by
  unfold hear
  dsimp only
  split
  next => exact .inl ⟨rfl, rfl⟩
  next frame found =>
    obtain ⟨span, suffix, fills⟩ := Window.exists_span_of_find found
    exact .inr ⟨frame, span, rfl, rfl, suffix.trans (recent_suffix _), fills⟩

theorem genuine_found {span : Bytes} {frame : Frame} {byte : UInt8} (suffix : span <:+ past ++ [byte])
    (fills : frame.Fills .checksum span) (later : Bytes) :
    Renewal.Genuine (past ++ [byte] ++ later) (.found past.length frame) := by
  have length : (past ++ [byte]).length = past.length + 1 := List.length_append
  have short := suffix.length_le
  rw [length] at short
  refine ⟨?_, ?_, ?_⟩
  · rw [List.length_append, length]
    omega
  · rw [fills.length]
    exact short
  · rw [← length, List.take_left, fills.length, ← List.suffix_iff_eq_drop.mp suffix, Frame.fills_checksum.mp fills]
    exact frame.encode_checksum

theorem laid_hearAll (inside : floor ≤ past.length) (heard : account.heard = past.drop floor)
    (hearings : List Hearing) :
    Renewal.Laid (past ++ ingested hearings) floor
      (renewalsFrom past.length (hearings.zip (hearAll (perform .checksum policy) account hearings).2)) := by
  -- on what is done, from any account that has heard what came in since the last renewal
  induction hearings generalizing account past floor with
  | nil => exact .nil
  | cons hearing rest ih =>
    cases hearing with
    | reset =>
      refine .cons inside trivial (ih (Nat.le_refl _) ?_)
      exact List.drop_length.symm
    | ingest byte =>
      have grown : past ++ ingested (.ingest byte :: rest) = past ++ [byte] ++ ingested rest := List.append_cons _ _ _
      have length : (past ++ [byte]).length = past.length + 1 := List.length_append
      have more : account.heard ++ [byte] = (past ++ [byte]).drop floor := by
        rw [List.drop_append_of_le_length inside, heard]
      rw [hearAll, List.zip_cons_cons, grown]
      dsimp only [perform]
      obtain ⟨nothing, kept⟩ | ⟨frame, span, found, forgotten, suffix, fills⟩ :=
        hear_cases .checksum policy account byte
      · rw [nothing, renewalsFrom, ← length]
        exact ih (by omega) (kept.trans more)
      · rw [found, renewalsFrom, ← length]
        rw [more] at suffix
        have short := suffix.length_le
        rw [List.length_drop, ← fills.length] at short
        refine .cons ?_ ?_ (ih ?_ ?_)
        · rw [Renewal.start]
          omega
        · exact genuine_found (suffix.trans (List.drop_suffix _ _)) fills (ingested rest)
        · rw [Renewal.stop, length]
        · rw [Renewal.stop, forgotten, ← length, List.drop_length]

end Account

namespace Window

theorem frames_renewalsFrom (window : Window) (hearings : List Hearing) (index : Nat) :
    (renewalsFrom index (hearings.zip (hearAll perform window hearings).2)).filterMap Renewal.frame? =
      (hearAll perform window hearings).2.reduceOption := by
  induction hearings generalizing window index with
  | nil => rfl
  | cons hearing rest ih =>
    rw [hearAll, List.zip_cons_cons]
    cases hearing with
    | reset =>
      rw [renewalsFrom, List.filterMap_cons_none rfl, ih]
      exact (List.reduceOption_cons_of_none _).symm
    | ingest byte =>
      dsimp only [perform]
      cases (window.ingest byte).frame with
      | none => rw [renewalsFrom, ih, List.reduceOption_cons_of_none]
      | some frame =>
        have itself : (Renewal.found index frame).frame? = some frame := rfl
        rw [renewalsFrom, List.filterMap_cons_some itself, ih, List.reduceOption_cons_of_some]

/-- Whatever comes in, and whenever the window is reset, the frames handed out are stretches of the
stream, each beginning behind the one before and behind every reset before it. No byte goes into two. -/
theorem frames_apart (policy : SyncPolicy) (hearings : List Hearing) :
    let answers := (hearAll perform (empty .checksum policy) hearings).2
    let stream := ingested hearings
    let renewals := renewalsFrom 0 (hearings.zip answers)
    renewals.filterMap Renewal.frame? = answers.reduceOption ∧
    (∀ last frame, .found last frame ∈ renewals →
      last < stream.length ∧ frame.wireSize ≤ last + 1 ∧
        frame.encode .checksum = .ok ((stream.take (last + 1)).drop (last + 1 - frame.wireSize))) ∧
    renewals.Pairwise (fun earlier later => earlier.stop ≤ later.start) ∧
    ∀ index, (renewals.countP fun renewal => renewal.start ≤ index ∧ index < renewal.stop) ≤ 1 := by
  intro answers stream renewals
  have alike : answers = (hearAll (Account.perform .checksum policy) .silent hearings).2 :=
    (hearAll_related agrees_perform hearings (agrees_empty .checksum policy)).1
  have laid : Renewal.Laid stream 0 renewals := by
    have start := @Account.laid_hearAll policy .silent [] 0 (Nat.le_refl 0) rfl hearings
    rw [← alike] at start
    exact start
  refine ⟨frames_renewalsFrom _ _ _, ?_, laid.apart, countP_covering_le_one laid.apart⟩
  intro last frame member
  exact laid.genuine (.found last frame) member

end Window

end Hopline

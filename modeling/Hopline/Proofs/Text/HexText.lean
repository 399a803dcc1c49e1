import Hopline.Command.Values

/-! What is read as hexadecimal text. All of it is, each pair of digits as the byte that they denote; but since
a pair is read as a number, and a number may have a plus sign, so is a pair of a sign and one digit. -/

namespace Hopline.Text

/-- The value of a digit from `0` to `9`, from `a` to `f` or from `A` to `F`. -/
def hexValue? (char : Char) : Option Nat :=
  ("0123456789abcdef".toList.idxOf? char).or ("0123456789ABCDEF".toList.idxOf? char)

/-- What stands for the higher half of a byte: a digit, or a plus sign for nothing. -/
def leadingValue? (char : Char) : Option Nat := if char = '+' then some 0 else hexValue? char

/-- The bytes that pairs denote, given what the first and the second half of a pair are worth. -/
def pairsOf? {α : Type} (leading last : α → Option Nat) : List α → Option Bytes
  | high :: low :: rest => do
    let upper ← leading high
    let lower ← last low
    let bytes ← pairsOf? leading last rest
    return UInt8.ofNat (upper * 16 + lower) :: bytes
  | [] => some []
  | [_] => none

def unmarked : List Char → List Char
  | '0' :: 'x' :: rest => rest
  | text => text

def isAsciiBlank (char : Char) : Bool := [' ', '\t', '\n', '\x0C', '\r'].contains char

/-- What is left of a text to be read as pairs. -/
def hexText (text : String) : List Char := (unmarked (trim text.toList)).filter fun char => !isAsciiBlank char

section Pairs

variable {α : Type} {leading last : α → Option Nat}

theorem pairsOf?_cons_cons {high low : α} {rest : List α} {bytes : Bytes} :
    pairsOf? leading last (high :: low :: rest) = some bytes ↔ ∃ upper lower later, leading high = some upper ∧
      last low = some lower ∧ pairsOf? leading last rest = some later ∧ UInt8.ofNat (upper * 16 + lower) :: later = bytes := by
  simp only [pairsOf?, Option.bind_eq_bind, Option.bind_eq_some_iff, Option.pure_def, Option.some.injEq,
    exists_and_left]

/-- Every item of the text is worth something at its place in a pair. -/
def Worth (leading last : α → Option Nat) (text : List α) : Prop :=
  ∀ index item, text[index]? = some item → (if index % 2 = 0 then leading item else last item).isSome

theorem even_and_worth {text : List α} {bytes : Bytes} (denoted : pairsOf? leading last text = some bytes) :
    text.length % 2 = 0 ∧ Worth leading last text := by
  induction text using pairsOf?.induct generalizing bytes with
  | case1 high low rest ih =>
    obtain ⟨upper, lower, later, first, second, onward, -⟩ := pairsOf?_cons_cons.mp denoted
    obtain ⟨even, worth⟩ := ih onward
    refine ⟨by simp only [List.length_cons]; omega, ?_⟩
    intro index item found
    match index with
    | 0 =>
      cases found
      exact Option.isSome_of_eq_some first
    | 1 =>
      cases found
      exact Option.isSome_of_eq_some second
    | index + 2 =>
      rw [Nat.add_mod_right]
      exact worth index item found
  | case2 => exact ⟨rfl, fun index item found => nomatch found⟩
  | case3 => cases denoted

theorem exists_pairsOf? {text : List α} (even : text.length % 2 = 0) (worth : Worth leading last text) :
    ∃ bytes, pairsOf? leading last text = some bytes := by
  induction text using pairsOf?.induct with
  | case1 high low rest ih =>
    obtain ⟨upper, first⟩ := Option.isSome_iff_exists.mp (worth 0 high rfl)
    obtain ⟨lower, second⟩ := Option.isSome_iff_exists.mp (worth 1 low rfl)
    have fewer : rest.length % 2 = 0 := by
      simp only [List.length_cons] at even
      omega
    have onward : Worth leading last rest := by
      intro index item found
      have there := worth (index + 2) item found
      rwa [Nat.add_mod_right] at there
    obtain ⟨later, onward⟩ := ih fewer onward
    exact ⟨_, pairsOf?_cons_cons.mpr ⟨upper, lower, later, first, second, onward, rfl⟩⟩
  | case2 => exact ⟨[], rfl⟩
  | case3 => cases even

end Pairs

/-- Beyond ASCII all bytes of a character are, and there is more than one. -/
theorem utf8EncodeChar_cases (char : Char) :
    char.toNat < 128 ∧ String.utf8EncodeChar char = [UInt8.ofNat char.toNat] ∨
      128 ≤ char.toNat ∧ ∃ first second rest, String.utf8EncodeChar char = first :: second :: rest ∧
        ∀ byte ∈ first :: second :: rest, 128 ≤ byte.toNat := by
  have value : char.val.toNat = char.toNat := rfl
  unfold String.utf8EncodeChar
  rw [value]
  dsimp only
  split
  next small => exact .inl ⟨Nat.lt_succ_of_le small, rfl⟩
  next large =>
    refine .inr ⟨Nat.lt_of_not_le large, ?_⟩
    -- two, three or four bytes, each with its highest bit set
    split
    case' isFalse => split
    all_goals
      refine ⟨_, _, _, rfl, ?_⟩
      simp only [List.forall_mem_cons, List.not_mem_nil, false_implies, implies_true, and_true, UInt8.toNat_ofNat']
      omega

theorem hexValue?_of_ascii {char : Char} (ascii : char.toNat < 128) :
    hexValue? char = digitValue 16 (UInt8.ofNat char.toNat) ∧
      isAsciiBlank char = isBlankByte (UInt8.ofNat char.toNat) := by
  have all : ∀ point < 128, hexValue? (Char.ofNat point) = digitValue 16 (UInt8.ofNat point) ∧
      isAsciiBlank (Char.ofNat point) = isBlankByte (UInt8.ofNat point) := by decide +kernel
  have one := all char.toNat ascii
  rwa [Char.ofNat_toNat] at one

theorem hexValue?_of_large {char : Char} (large : 128 ≤ char.toNat) : hexValue? char = none ∧ isAsciiBlank char = false := by
  have absent : ∀ {chars : List Char}, chars.all (fun char => char.toNat < 128) = true → char ∉ chars := by
    intro chars ascii member
    have small := of_decide_eq_true (List.all_eq_true.mp ascii char member)
    omega
  refine ⟨?_, ?_⟩
  · rw [hexValue?, List.idxOf?_eq_none_iff.mpr (absent rfl), List.idxOf?_eq_none_iff.mpr (absent rfl)]
    rfl
  · rw [isAsciiBlank, List.contains_eq_mem]
    exact decide_eq_false (absent rfl)

theorem digitValue_of_large {byte : UInt8} (large : 128 ≤ byte.toNat) : digitValue 16 byte = none := by
  have outside : ¬ (0x30 ≤ byte.toNat ∧ byte.toNat ≤ 0x39) ∧ ¬ (0x61 ≤ byte.toNat ∧ byte.toNat ≤ 0x66) ∧
      ¬ (0x41 ≤ byte.toNat ∧ byte.toNat ≤ 0x46) := by omega
  simp only [digitValue, outside, ↓reduceIte, Option.filter_none]

theorem isBlankByte_of_large {byte : UInt8} (large : 128 ≤ byte.toNat) : isBlankByte byte = false := by
  have apart : ∀ blank : UInt8, blank.toNat < 128 → (byte == blank) = false := by
    intro blank small
    apply beq_false_of_ne
    rintro rfl
    omega
  simp [isBlankByte, apart]

/-- What a sign or a digit at the front of a pair is worth as a byte. -/
def leadingByteValue? (byte : UInt8) : Option Nat := if byte = 0x2B then some 0 else digitValue 16 byte

theorem leadingValue?_of_ascii {char : Char} (ascii : char.toNat < 128) :
    leadingValue? char = leadingByteValue? (UInt8.ofNat char.toNat) := by
  have sign : char = '+' ↔ UInt8.ofNat char.toNat = 0x2B := by
    rw [← UInt8.toNat_inj, UInt8.toNat_ofNat', Nat.mod_eq_of_lt (by omega), ← Char.toNat_inj]
    rfl
  simp only [leadingValue?, leadingByteValue?, (hexValue?_of_ascii ascii).1, sign]

theorem leadingValue?_of_large {char : Char} (large : 128 ≤ char.toNat) : leadingValue? char = none := by
  have unsigned : char ≠ '+' := by
    rintro rfl
    exact absurd large (by decide)
  rw [leadingValue?, if_neg unsigned, (hexValue?_of_large large).1]

theorem leadingByteValue?_of_large {byte : UInt8} (large : 128 ≤ byte.toNat) : leadingByteValue? byte = none := by
  have unsigned : byte ≠ 0x2B := by
    rintro rfl
    exact absurd large (by decide)
  rw [leadingByteValue?, if_neg unsigned, digitValue_of_large large]

/-- The bytes of a text denote what its characters do: those beyond ASCII denote nothing. -/
theorem pairsOf?_utf8 (text : List Char) :
    pairsOf? leadingByteValue? (digitValue 16) (text.flatMap String.utf8EncodeChar) =
      pairsOf? leadingValue? hexValue? text := by
  induction text using pairsOf?.induct with
  | case1 high low rest ih =>
    rcases utf8EncodeChar_cases high with ⟨ascii, single⟩ | ⟨large, first, second, more, several, bytes⟩
    · rcases utf8EncodeChar_cases low with ⟨ascii', single'⟩ | ⟨large', first, second, more, several, bytes⟩
      · simp only [List.flatMap_cons, single, single', List.cons_append, List.nil_append, pairsOf?, ih,
          leadingValue?_of_ascii ascii, (hexValue?_of_ascii ascii').1]
      · have unread := digitValue_of_large (bytes first List.mem_cons_self)
        simp [List.flatMap_cons, single, several, pairsOf?, unread, (hexValue?_of_large large').1]
    · have unread := leadingByteValue?_of_large (bytes first List.mem_cons_self)
      simp [List.flatMap_cons, several, pairsOf?, unread, leadingValue?_of_large large]
  | case2 => rfl
  | case3 char =>
    rcases utf8EncodeChar_cases char with ⟨ascii, single⟩ | ⟨large, first, second, more, several, bytes⟩
    · simp [single, pairsOf?]
    · have unread := leadingByteValue?_of_large (bytes first List.mem_cons_self)
      simp [several, pairsOf?, unread]

theorem filter_utf8 (text : List Char) :
    (text.flatMap String.utf8EncodeChar).filter (fun byte => !isBlankByte byte) =
      (text.filter fun char => !isAsciiBlank char).flatMap String.utf8EncodeChar := by
  induction text with
  | nil => rfl
  | cons char rest ih =>
    rw [List.flatMap_cons, List.filter_append, ih]
    rcases utf8EncodeChar_cases char with ⟨ascii, single⟩ | ⟨large, first, second, more, several, bytes⟩
    · have same := (hexValue?_of_ascii ascii).2
      cases blank : isAsciiBlank char with
      | true => simp [single, blank, same.symm.trans blank]
      | false => simp [single, blank, same.symm.trans blank]
    · have kept : (first :: second :: more).filter (fun byte => !isBlankByte byte) = first :: second :: more := by
        apply List.filter_eq_self.mpr
        intro byte member
        rw [isBlankByte_of_large (bytes byte member)]
        rfl
      rw [several, kept, List.filter_cons, (hexValue?_of_large large).2]
      simp [several]

/-- A text is one of digits alone if it can be read without minding signs and holds none. -/
theorem pairsOf?_unsigned_iff {text : List Char} {bytes : Bytes} :
    pairsOf? hexValue? hexValue? text = some bytes ↔ pairsOf? leadingValue? hexValue? text = some bytes ∧ '+' ∉ text := by
  induction text using pairsOf?.induct generalizing bytes with
  | case1 high low rest ih =>
    have signless : ∀ {char value}, hexValue? char = some value → '+' ≠ char := by
      rintro _ _ known rfl
      cases known
    simp only [pairsOf?_cons_cons, List.mem_cons, not_or]
    constructor
    · rintro ⟨upper, lower, later, first, second, onward, rfl⟩
      obtain ⟨read, unsigned⟩ := ih.mp onward
      have leading : leadingValue? high = some upper := by rwa [leadingValue?, if_neg (signless first).symm]
      exact ⟨⟨upper, lower, later, leading, second, read, rfl⟩, signless first, signless second, unsigned⟩
    · rintro ⟨⟨upper, lower, later, leading, second, read, rfl⟩, first, -, unsigned⟩
      rw [leadingValue?, if_neg (Ne.symm first)] at leading
      exact ⟨upper, lower, later, leading, second, ih.mpr ⟨read, unsigned⟩, rfl⟩
  | case2 => simp [pairsOf?]
  | case3 => simp [pairsOf?]

theorem worth_iff {text : List Char} : Worth leadingValue? hexValue? text ↔
    ∀ index char, text[index]? = some char → (hexValue? char).isSome ∨ char = '+' ∧ index % 2 = 0 := by
  apply forall_congr'
  intro index
  apply forall_congr'
  intro char
  by_cases front : index % 2 = 0
  · by_cases sign : char = '+' <;> simp [leadingValue?, front, sign]
  · simp [front]

end Hopline.Text

namespace Hopline.Command

open Text

theorem dropMarker?_eq_unmarked (text : List Char) : (dropMarker? ['0', 'x'] text).getD text = unmarked text := by
  unfold dropMarker?
  split
  next marked =>
    obtain ⟨rest, rfl⟩ := List.isPrefixOf_iff_prefix.mp marked
    rfl
  next other =>
    rw [Option.getD_none]
    unfold unmarked
    split
    next => exact absurd rfl other
    next => rfl

theorem hexDigits_eq (text : String) : hexDigits text = (hexText text).flatMap String.utf8EncodeChar := by
  rw [hexDigits, dropMarker?_eq_unmarked, utf8Bytes, String.toList_ofList, filter_utf8]
  rfl

theorem digitValue_lt {base digit : Nat} {byte : UInt8} (value : digitValue base byte = some digit) : digit < base := by
  simpa using (Option.filter_eq_some_iff.mp value).2

theorem readDigits_of_digit {value digit : Nat} {byte : UInt8} (known : digitValue 16 byte = some digit)
    (fits : value * 16 + digit ≤ 0xFF) (rest : Bytes) :
    readDigits 16 0xFF value (byte :: rest) = readDigits 16 0xFF (value * 16 + digit) rest := by
  simp only [readDigits, known, Nat.not_lt.mpr fits, ↓reduceIte]

theorem readDigits_of_none {value : Nat} {byte : UInt8} (unread : digitValue 16 byte = none) (rest : Bytes) :
    readDigits 16 0xFF value (byte :: rest) = .error .invalidDigit := by
  simp only [readDigits, unread]

theorem readDigits_one {byte : UInt8} {value : Nat} :
    readDigits 16 0xFF 0 [byte] = .ok value ↔ digitValue 16 byte = some value := by
  cases known : digitValue 16 byte with
  | none => simp [readDigits_of_none known]
  | some digit =>
    have small := digitValue_lt known
    rw [readDigits_of_digit known (by omega)]
    simp [readDigits]

theorem readDigits_two {high low : UInt8} {value : Nat} :
    readDigits 16 0xFF 0 [high, low] = .ok value ↔
      ∃ upper lower, digitValue 16 high = some upper ∧ digitValue 16 low = some lower ∧ upper * 16 + lower = value := by
  cases first : digitValue 16 high with
  | none => simp [readDigits_of_none first]
  | some upper =>
    have small := digitValue_lt first
    rw [readDigits_of_digit first (by omega)]
    cases second : digitValue 16 low with
    | none => simp [readDigits_of_none second]
    | some lower =>
      have small' := digitValue_lt second
      rw [readDigits_of_digit second (by omega)]
      simp [readDigits]

theorem readNumber_pair {high low : UInt8} {value : Nat} :
    readNumber 16 0xFF [high, low] = .ok value ↔
      ∃ upper lower, leadingByteValue? high = some upper ∧ digitValue 16 low = some lower ∧ upper * 16 + lower = value := by
  by_cases signed : high = 0x2B
  · subst signed
    have number : readNumber 16 0xFF [0x2B, low] = readDigits 16 0xFF 0 [low] := rfl
    rw [number, readDigits_one]
    simp [leadingByteValue?]
  · have number : readNumber 16 0xFF [high, low] = readDigits 16 0xFF 0 [high, low] := by
      unfold readNumber
      split
      next same => cases same
      next same => cases same
      next same => exact absurd (List.cons.inj same).1 signed
      next => rfl
    rw [number, readDigits_two, leadingByteValue?, if_neg signed]

theorem readPair_eq_ok {high low byte : UInt8} :
    readPair [high, low] = .ok byte ↔ ∃ upper lower, leadingByteValue? high = some upper ∧
      digitValue 16 low = some lower ∧ UInt8.ofNat (upper * 16 + lower) = byte := by
  unfold readPair
  cases known : readNumber 16 0xFF [high, low] with
  | ok value =>
    obtain ⟨upper, lower, first, second, rfl⟩ := readNumber_pair.mp known
    simp [first, second]
  | error error =>
    simp only [reduceCtorEq, false_iff]
    rintro ⟨upper, lower, first, second, -⟩
    have read := readNumber_pair.mpr ⟨upper, lower, first, second, rfl⟩
    cases known.symm.trans read

theorem readPairs_cons_cons {high low : UInt8} {rest bytes : Bytes} : readPairs (high :: low :: rest) = .ok bytes ↔
    ∃ byte later, readPair [high, low] = .ok byte ∧ readPairs rest = .ok later ∧ byte :: later = bytes := by
  rw [readPairs]
  cases readPair [high, low] with
  | error error => simp [bind, Except.bind]
  | ok byte => cases readPairs rest <;> simp [bind, Except.bind, pure, Except.pure]

theorem readPairs_eq_ok {digits bytes : Bytes} (even : digits.length % 2 = 0) :
    readPairs digits = .ok bytes ↔ pairsOf? leadingByteValue? (digitValue 16) digits = some bytes := by
  induction digits using pairsOf?.induct generalizing bytes with
  | case1 high low rest ih =>
    have fewer : rest.length % 2 = 0 := by
      simp only [List.length_cons] at even
      omega
    rw [pairsOf?_cons_cons, readPairs_cons_cons]
    constructor
    · rintro ⟨byte, later, first, onward, rfl⟩
      obtain ⟨upper, lower, high, low, rfl⟩ := readPair_eq_ok.mp first
      exact ⟨upper, lower, later, high, low, (ih fewer).mp onward, rfl⟩
    · rintro ⟨upper, lower, later, high, low, onward, rfl⟩
      exact ⟨_, later, readPair_eq_ok.mpr ⟨upper, lower, high, low, rfl⟩, (ih fewer).mpr onward, rfl⟩
  | case2 => simp [readPairs, pairsOf?]
  | case3 => cases even

theorem code_of_readPair {pair : Bytes} {error : CommandError} (refused : readPair pair = .error error) :
    error.code = .usage := by
  unfold readPair at refused
  split at refused
  next => cases refused
  next =>
    cases refused
    rfl

theorem code_of_readPairs {digits : Bytes} {error : CommandError} (refused : readPairs digits = .error error) :
    error.code = .usage := by
  induction digits using readPairs.induct with
  | case1 high low rest ih =>
    rw [readPairs] at refused
    cases first : readPair [high, low] with
    | error other =>
      rw [first] at refused
      cases refused
      exact code_of_readPair first
    | ok byte =>
      cases onward : readPairs rest with
      | error other =>
        rw [first, onward] at refused
        cases refused
        exact ih onward
      | ok bytes =>
        rw [first, onward] at refused
        cases refused
  | case2 digits short =>
    unfold readPairs at refused
    split at refused
    next => exact (short _ _ _ rfl).elim
    next => cases refused

theorem readHex_eq_ok {text : String} {bytes : Bytes} :
    readHex text = .ok bytes ↔ pairsOf? leadingValue? hexValue? (hexText text) = some bytes := by
  rw [← pairsOf?_utf8, ← hexDigits_eq]
  unfold readHex
  dsimp only
  split
  next odd =>
    simp only [reduceCtorEq, false_iff]
    intro denoted
    exact odd (even_and_worth denoted).1
  next even => exact readPairs_eq_ok (Decidable.not_not.mp even)

/-- A text is read if it is made of pairs, of which the first half is a digit or a plus sign and the second
one a digit. The texts of digits alone are those that are read and hold no sign. What is refused is
the user's fault. -/
theorem readHex_pairs (text : String) :
    (∀ bytes, readHex text = .ok bytes ↔ pairsOf? leadingValue? hexValue? (hexText text) = some bytes) ∧
    ((∃ bytes, readHex text = .ok bytes) ↔ (hexText text).length % 2 = 0 ∧ ∀ index char,
      (hexText text)[index]? = some char → (hexValue? char).isSome ∨ char = '+' ∧ index % 2 = 0) ∧
    (∀ bytes, pairsOf? hexValue? hexValue? (hexText text) = some bytes ↔
      readHex text = .ok bytes ∧ '+' ∉ hexText text) ∧
    ∀ error, readHex text = .error error → error.code = .usage := by
  refine ⟨fun bytes => readHex_eq_ok, ?_, ?_, ?_⟩
  · simp only [readHex_eq_ok, ← worth_iff]
    constructor
    · intro ⟨bytes, denoted⟩
      exact even_and_worth denoted
    · intro ⟨even, worth⟩
      exact exists_pairsOf? even worth
  · intro bytes
    rw [readHex_eq_ok]
    exact pairsOf?_unsigned_iff
  · intro error refused
    unfold readHex at refused
    dsimp only at refused
    split at refused
    next =>
      cases refused
      rfl
    next => exact code_of_readPairs refused

/-- A sign and a digit are read as a byte, though they are no pair of digits. -/
theorem readHex_signed : readHex "+1" = .ok [0x01] ∧ pairsOf? hexValue? hexValue? (hexText "+1") = none :=
  ⟨rfl, rfl⟩

end Hopline.Command

import Hopline.Frame.Basic
import Hopline.Proofs.Frame.ShiftRegister

/-! What the checksum gives away. Errors leave a span accepted only when the register that the errors in
the body make is the one that the errors in the trailer store. That never happens to an odd number of
errors, to a burst in the body that fits the register, or to two errors in a span of a frame's size. -/

namespace Hopline

/-- The bits in which two spans differ, each byte's highest bit first. -/
def bitErrors (span other : Bytes) : List Bool := flips (serialBits span) (serialBits other)

/-- Errors that are no further apart than the register is long. -/
def Burst (start : Nat) (errors : List Bool) : Prop :=
  ∀ index, errors[index]? = some true → start ≤ index ∧ index < start + 16

instance (start : Nat) (errors : List Bool) : Decidable (Burst start errors) :=
  decidable_of_iff (∀ index < errors.length, errors[index]? = some true → start ≤ index ∧ index < start + 16)
    ⟨fun each index set => each index (List.getElem?_eq_some_iff.mp set).1 set, fun burst index _ => burst index⟩

section

variable {bits : List Bool} {span other : Bytes}

theorem eq_zeros (clear : true ∉ bits) : bits = List.replicate bits.length false := by
  apply List.eq_replicate_iff.mpr
  exact ⟨rfl, fun bit member => Bool.eq_false_iff.mpr fun set => clear (set ▸ member)⟩

theorem zeros_before {start : Nat} (after : ∀ index, bits[index]? = some true → start ≤ index) :
    bits = List.replicate (bits.take start).length false ++ bits.drop start := by
  have clear : true ∉ bits.take start := by
    intro member
    obtain ⟨index, found⟩ := List.mem_iff_getElem?.mp member
    rw [List.getElem?_take] at found
    split at found
    next early => exact Nat.not_le.mpr early (after index found)
    next => cases found
  rw [← eq_zeros clear, List.take_append_drop]

theorem zeros_after {stop : Nat} (before : ∀ index, bits[index]? = some true → index < stop) :
    bits = bits.take stop ++ List.replicate (bits.drop stop).length false := by
  have clear : true ∉ bits.drop stop := by
    intro member
    obtain ⟨index, found⟩ := List.mem_iff_getElem?.mp member
    rw [List.getElem?_drop] at found
    exact Nat.not_lt.mpr (Nat.le_add_right stop index) (before _ found)
  rw [← eq_zeros clear, List.take_append_drop]

theorem Burst.exists_eq_append {start : Nat} (burst : Burst start bits) : ∃ before errors after,
    errors.length ≤ 16 ∧ bits = List.replicate before false ++ (errors ++ List.replicate after false) := by
  have front := zeros_before fun index set => (burst index set).1
  have ended (index : Nat) (set : (bits.drop start)[index]? = some true) : index < 16 := by
    rw [List.getElem?_drop] at set
    exact Nat.lt_of_add_lt_add_left (burst _ set).2
  rw [zeros_after ended] at front
  exact ⟨_, _, _, List.length_take_le 16 _, front⟩

theorem Burst.left {start : Nat} {errors rest : List Bool} (burst : Burst start (errors ++ rest)) :
    Burst start errors := by
  intro index set
  apply burst index
  rw [List.getElem?_append_left (List.getElem?_eq_some_iff.mp set).1, set]

theorem exists_error {count : Nat} (errors : bits.count true = count + 1) :
    ∃ before rest, bits = List.replicate before false ++ true :: rest ∧ rest.count true = count := by
  induction bits with
  | nil => cases errors
  | cons bit rest ih =>
    cases bit with
    | false =>
      obtain ⟨before, later, rfl, left⟩ := ih (by simpa using errors)
      exact ⟨before + 1, later, rfl, left⟩
    | true => exact ⟨0, rest, rfl, by simpa using errors⟩

theorem zeros_of_count (errors : bits.count true = 0) : bits = List.replicate bits.length false :=
  eq_zeros (List.count_eq_zero.mp errors)

theorem length_bitErrors (sized : other.length = span.length) : (bitErrors span other).length = 8 * span.length := by
  rw [bitErrors, length_flips (serialBits_sized sized), length_serialBits]

theorem bitErrors_append (sized : other.length = span.length) (rest rest' : Bytes) :
    bitErrors (span ++ rest) (other ++ rest') = bitErrors span other ++ bitErrors rest rest' := by
  rw [bitErrors, serialBits_append, serialBits_append]
  exact flips_append (serialBits_sized sized) _ _

theorem bitErrors_self (span : Bytes) : bitErrors span span = List.replicate (8 * span.length) false := by
  rw [bitErrors, flips, List.zipWith_self, ← length_serialBits]
  simp only [Bool.xor_self, List.map_const']

theorem eq_of_no_error (sized : other.length = span.length) (clear : true ∉ bitErrors span other) : other = span := by
  have zeros := eq_zeros clear
  rw [length_bitErrors sized, ← bitErrors_self] at zeros
  apply serialBits_injective
  exact (flips_right_inj (serialBits_sized sized) rfl).mp zeros

end

namespace Checksum

/-- The bits of the register in the order in which a trailer holds them. -/
def storedBits (register : UInt16) : List Bool :=
  [7, 6, 5, 4, 3, 2, 1, 0, 15, 14, 13, 12, 11, 10, 9, 8].map register.toNat.testBit

theorem length_storedBits (register : UInt16) : (storedBits register).length = 16 := rfl

theorem serialBits_littleEndian (register : UInt16) :
    serialBits (littleEndian size register.toNat) = storedBits register := by
  have upper : (register.toNat / 256).testBit = fun index => register.toNat.testBit (index + 8) := by
    funext index
    rw [show 256 = 2 ^ 8 from rfl, Nat.testBit_div_two_pow]
  simp only [size, littleEndian, serialBits, List.flatMap_cons, List.flatMap_nil, lowBits_ofNat, upper]
  rfl

theorem storedBits_xor (first second : UInt16) :
    storedBits (first ^^^ second) = flips (storedBits first) (storedBits second) := by
  rw [storedBits, storedBits, storedBits, flips_testBit, UInt16.toNat_xor]

theorem storedBits_injective : Function.Injective storedBits := by
  intro first second same
  rw [← serialBits_littleEndian, ← serialBits_littleEndian] at same
  have stored := congrArg ofLittleEndian (serialBits_injective same)
  have fits : first.toNat < 256 ^ size := first.toNat_lt
  have fits' : second.toNat < 256 ^ size := second.toNat_lt
  rw [ofLittleEndian_littleEndian, ofLittleEndian_littleEndian, Nat.mod_eq_of_lt fits, Nat.mod_eq_of_lt fits'] at stored
  exact UInt16.toNat_inj.mp stored

theorem storedBits_zero : storedBits 0 = List.replicate 16 false := by decide

/-- Errors in the body and in the trailer that leave an accepted span accepted. -/
def Unnoticed (body trailer : List Bool) : Prop := storedBits (takeBits 0 body) = trailer

section

variable {span other : Bytes}

theorem body_append_trailer (span : Bytes) : body span ++ trailer span = span := List.take_append_drop _ _

theorem length_body (span : Bytes) : (body span).length = span.length - size := by
  rw [body, List.length_take]
  omega

theorem length_trailer (long : size ≤ span.length) : (trailer span).length = size := by
  rw [trailer, List.length_drop]
  omega

theorem long_of_accepted (accepted : validator span = true) : size ≤ span.length := by
  simp only [validator, Bool.and_eq_true, Bool.not_eq_true', decide_eq_false_iff_not] at accepted
  exact Nat.le_of_not_lt accepted.1

theorem accepts_iff (long : size ≤ span.length) :
    validator span = true ↔ serialBits (trailer span) = storedBits (takeBits preset (serialBits (body span))) := by
  have signed := validator_append (body span) (length_trailer long)
  rw [body_append_trailer] at signed
  rw [signed, ← checksum_eq, ← serialBits_littleEndian]
  exact serialBits_injective.eq_iff.symm

theorem body_sized (sized : other.length = span.length) : (body other).length = (body span).length := by
  rw [length_body, length_body, sized]

theorem trailer_sized (long : size ≤ span.length) (sized : other.length = span.length) :
    (trailer other).length = (trailer span).length := by
  rw [length_trailer (sized ▸ long), length_trailer long]

theorem bitErrors_split (sized : other.length = span.length) :
    bitErrors span other = bitErrors (body span) (body other) ++ bitErrors (trailer span) (trailer other) := by
  rw [← bitErrors_append (body_sized sized), body_append_trailer, body_append_trailer]

/-- Whether a changed span is accepted depends on the errors alone. -/
theorem accepts_other_iff (accepted : validator span = true) (sized : other.length = span.length) :
    validator other = true ↔
      Unnoticed (bitErrors (body span) (body other)) (bitErrors (trailer span) (trailer other)) := by
  have long := long_of_accepted accepted
  have signed := (accepts_iff long).mp accepted
  have registers := takeBits_xor preset preset (serialBits_sized (body_sized sized))
  rw [UInt16.xor_self] at registers
  rw [accepts_iff (sized ▸ long), Unnoticed, bitErrors, bitErrors, registers, storedBits_xor, ← signed, eq_comm]
  exact (flips_right_inj (signed ▸ rfl) (serialBits_sized (trailer_sized long sized))).symm

end

/-- A register with an even number of bits set. -/
def Balanced (register : UInt16) : Prop := Even ((storedBits register).count true)

instance (register : UInt16) : Decidable (Balanced register) :=
  inferInstanceAs (Decidable (Even ((storedBits register).count true)))

theorem balanced_xor (first second : UInt16) : Balanced (first ^^^ second) ↔ (Balanced first ↔ Balanced second) := by
  unfold Balanced
  rw [storedBits_xor]
  exact even_count_flips rfl

theorem balanced_iff (register : UInt16) :
    Balanced register ↔ Even (((List.range 16).map register.toNat.testBit).count true) := by
  have moved : [7, 6, 5, 4, 3, 2, 1, 0, 15, 14, 13, 12, 11, 10, 9, 8].Perm (List.range 16) := by decide
  rw [Balanced, storedBits, (moved.map _).count_eq]

theorem balanced_carry (bit : Bool) : Balanced (carry bit) ↔ bit = false := by cases bit <;> decide

theorem balanced_top (bit : Bool) : Balanced (top bit) ↔ bit = false := by cases bit <;> decide

theorem balanced_shiftLeft (register : UInt16) :
    Balanced (register <<< 1) ↔ (Balanced register ↔ register.toNat.testBit 15 = false) := by
  have moved : (List.range 15).map ((register <<< 1).toNat.testBit ∘ Nat.succ) =
      (List.range 15).map register.toNat.testBit := by
    apply List.map_congr_left
    intro index inside
    have bound := List.mem_range.mp inside
    rw [Function.comp_apply, testBit_shiftLeft, decide_eq_true (Nat.succ_lt_succ bound),
      decide_eq_true (Nat.le_add_left 1 index)]
    rfl
  have shifted : (List.range 16).map (register <<< 1).toNat.testBit =
      false :: (List.range 15).map register.toNat.testBit := by
    rw [List.range_succ_eq_map, List.map_cons, List.map_map, moved, testBit_shiftLeft]
    rfl
  rw [balanced_iff, balanced_iff, shifted, List.range_succ (n := 15), List.map_append, List.map_singleton,
    List.count_append]
  cases register.toNat.testBit 15 <;> simp [Nat.even_add_one]

/-- The generator has an odd number of terms besides its leading one: they make up for the bit that falls out. -/
theorem balanced_shift (register : UInt16) : Balanced (shift register) ↔ Balanced register := by
  rw [shift_eq, balanced_xor, balanced_shiftLeft, balanced_carry]
  tauto

theorem balanced_takeBits (register : UInt16) (bits : List Bool) :
    Balanced (takeBits register bits) ↔ (Balanced register ↔ Even (bits.count true)) := by
  induction bits generalizing register with
  | nil => simp [takeBits]
  | cons bit rest ih =>
    refine (ih (takeBit register bit)).trans ?_
    rw [takeBit, balanced_shift, balanced_xor, balanced_top]
    cases bit with
    | false => simp
    | true =>
      simp only [List.count_cons_self, Nat.even_add_one]
      tauto

/-- No power of the generator's root is one again before the size of a frame is passed. -/
theorem shifts_one_ne {count : Nat} (positive : 0 < count) (bounded : count ≤ 8 * maxFrame) : shifts 1 count ≠ 1 := by
  have never : 1 ∉ List.iterate shift (shift 1) (8 * maxFrame) := by decide +kernel
  intro one
  obtain ⟨earlier, rfl⟩ := Nat.exists_eq_succ_of_ne_zero positive.ne'
  apply never
  apply List.mem_iterate.mpr
  exact ⟨earlier, by omega, one.symm.trans (shifts_eq_iterate (shift 1) earlier)⟩

theorem shifts_one_inj {first second : Nat} (bounded : first ≤ 8 * maxFrame) (bounded' : second ≤ 8 * maxFrame)
    (same : shifts 1 first = shifts 1 second) : first = second := by
  by_contra differ
  wlog smaller : first < second
  · exact this bounded' bounded same.symm (Ne.symm differ) (by omega)
  · have turned : shifts 1 (second - first) = 1 := by
      apply shifts_inj.mp
      rw [← shifts_add, Nat.sub_add_cancel smaller.le]
      exact same.symm
    exact shifts_one_ne (by omega) (by omega) turned

section

variable {bits trailing : List Bool} {register : UInt16}

/-- An error leaves the power of the root that belongs to the number of bits after it. -/
theorem takeBits_error (before : Nat) (rest : List Bool) :
    takeBits 0 (List.replicate before false ++ true :: rest) = shifts 1 (16 + rest.length) ^^^ takeBits 0 rest := by
  have entered : takeBit 0 true = shifts 1 16 := by decide +kernel
  rw [takeBits_append, takeBits_zeros, shifts_zero]
  refine (takeBits_eq (takeBit 0 true) rest).trans ?_
  rw [entered, ← shifts_add]

theorem takeBits_no_error (errors : bits.count true = 0) : takeBits 0 bits = 0 := by
  rw [zeros_of_count errors, takeBits_zeros, shifts_zero]

theorem eq_zero_of_no_error (errors : (storedBits register).count true = 0) : register = 0 :=
  storedBits_injective ((zeros_of_count errors).trans storedBits_zero.symm)

theorem exists_place (errors : (storedBits register).count true = 1) : ∃ place < 16, register = shifts 1 place := by
  have places : ∀ before < 16, ∃ place < 16,
      List.replicate before false ++ true :: List.replicate (15 - before) false = storedBits (shifts 1 place) := by
    decide +kernel
  obtain ⟨before, rest, split, left⟩ := exists_error errors
  have lengths := congrArg List.length split
  rw [length_storedBits, List.length_append, List.length_replicate, List.length_cons] at lengths
  obtain ⟨place, inside, stored⟩ := places before (by omega)
  have behind : rest.length = 15 - before := by omega
  refine ⟨place, inside, storedBits_injective ?_⟩
  rw [split, ← stored, ← behind, ← zeros_of_count left]

theorem Unnoticed.even_count (unnoticed : Unnoticed bits trailing) : Even ((bits ++ trailing).count true) := by
  have empty : Balanced 0 := by decide
  have balanced := balanced_takeBits 0 bits
  rw [Balanced, unnoticed] at balanced
  rw [List.count_append, Nat.even_add]
  tauto

/-- A burst that fits the register leaves it filled, however many bits come after. -/
theorem Unnoticed.clear_of_burst {start : Nat} (unnoticed : Unnoticed bits (List.replicate 16 false))
    (burst : Burst start bits) : true ∉ bits := by
  obtain ⟨before, errors, after, short, rfl⟩ := burst.exists_eq_append
  have empty : takeBits 0 (List.replicate before false ++ (errors ++ List.replicate after false)) = 0 :=
    storedBits_injective (unnoticed.trans storedBits_zero.symm)
  rw [takeBits_append, takeBits_append, takeBits_zeros, takeBits_zeros, shifts_zero, takeBits_number short,
    ← shifts_add] at empty
  have register : UInt16.ofNat (ofBits errors.reverse) = 0 := shifts_inj.mp (empty.trans (shifts_zero _).symm)
  have bound : ofBits errors.reverse < 2 ^ 16 :=
    (ofBits_lt _).trans_le (Nat.pow_le_pow_right Nat.two_pos (List.length_reverse.trans_le short))
  have number := congrArg UInt16.toNat register
  rw [UInt16.toNat_ofNat', Nat.mod_eq_of_lt bound] at number
  have clear := not_mem_of_ofBits_eq_zero number
  rw [List.mem_reverse] at clear
  simp only [List.mem_append, List.mem_replicate, Bool.true_eq_false, and_false, false_or, or_false]
  exact clear

/-- The errors in the body, of which there are none, one or two, are powers of the root; so is a lone error in
the trailer. No two of these powers are the same. -/
theorem Unnoticed.count_ne_two (unnoticed : Unnoticed bits trailing) (short : bits.length + 16 ≤ 8 * maxFrame) :
    (bits ++ trailing).count true ≠ 2 := by
  intro two
  rw [List.count_append, ← unnoticed] at two
  obtain none_before | one_before | two_before : bits.count true = 0 ∨ bits.count true = 1 ∨ bits.count true = 2 := by
    omega
  · have stored : (storedBits 0).count true = 0 := by decide
    rw [takeBits_no_error none_before, stored] at two
    omega
  · obtain ⟨before, rest, rfl, left⟩ := exists_error one_before
    rw [one_before, takeBits_error, takeBits_no_error left, UInt16.xor_zero] at two
    obtain ⟨place, inside, same⟩ := exists_place (Nat.add_left_cancel two)
    rw [List.length_append, List.length_cons] at short
    have equal := shifts_one_inj (by omega) (by omega) same
    omega
  · obtain ⟨before, rest, rfl, left⟩ := exists_error two_before
    obtain ⟨between, later, rfl, none_left⟩ := exists_error left
    have same := eq_zero_of_no_error (Nat.add_left_cancel (two.trans two_before.symm))
    rw [takeBits_error, takeBits_error, takeBits_no_error none_left, UInt16.xor_zero, UInt16.xor_eq_zero_iff] at same
    simp only [List.length_append, List.length_cons] at short same
    have equal := shifts_one_inj (by omega) (by omega) same
    omega

end

/-- An accepted span is no longer accepted with an odd number of errors in it, with a burst in its body that
fits the register, or, if it is no longer than a frame, with two errors. -/
theorem errors_detected {span other : Bytes} (accepted : validator span = true) (sized : other.length = span.length) :
    (Odd ((bitErrors span other).count true) → validator other = false) ∧
    (other ≠ span → trailer other = trailer span → (∃ start, Burst start (bitErrors span other)) →
      validator other = false) ∧
    (span.length ≤ maxFrame → (bitErrors span other).count true = 2 → validator other = false) := by
  have long := long_of_accepted accepted
  have apart := accepts_other_iff accepted sized
  have split := bitErrors_split sized
  have rejects (noticed : ¬Unnoticed (bitErrors (body span) (body other)) (bitErrors (trailer span) (trailer other))) :
      validator other = false := Bool.eq_false_iff.mpr (mt apart.mp noticed)
  refine ⟨?odd, ?burst, ?two⟩
  case odd =>
    intro odd
    rw [split] at odd
    apply rejects
    intro unnoticed
    exact Nat.not_even_iff_odd.mpr odd unnoticed.even_count
  case burst =>
    rintro differ unchanged ⟨start, burst⟩
    rw [split] at burst
    apply rejects
    intro unnoticed
    rw [unchanged, bitErrors_self, length_trailer long] at unnoticed
    have same := eq_of_no_error (body_sized sized) (unnoticed.clear_of_burst burst.left)
    apply differ
    rw [← body_append_trailer other, same, unchanged, body_append_trailer]
  case two =>
    intro short two
    rw [split] at two
    apply rejects
    intro unnoticed
    apply unnoticed.count_ne_two _ two
    rw [length_bitErrors (body_sized sized), length_body]
    unfold size at long ⊢
    omega

/-- Three errors, of which one is in the trailer, a burst of four, and two errors far from each other. -/
theorem errors_detected_digits :
    let span : Bytes := [0x31, 0x32, 0x33, 0x34, 0x35, 0x36, 0x37, 0x38, 0x39, 0xB1, 0x29]
    let three : Bytes := [0x31, 0x32, 0x33, 0xB4, 0x35, 0x36, 0x37, 0x38, 0x38, 0xB1, 0x21]
    let burst : Bytes := [0x31, 0x32, 0x33, 0x34, 0x74, 0x76, 0xB7, 0x38, 0x39, 0xB1, 0x29]
    let two : Bytes := [0xB1, 0x32, 0x33, 0x34, 0x35, 0x36, 0x37, 0x38, 0x39, 0xB1, 0x28]
    validator span = true ∧ three.length = span.length ∧ burst.length = span.length ∧ two.length = span.length ∧
      (Odd ((bitErrors span three).count true) ∧ validator three = false) ∧
      (burst ≠ span ∧ trailer burst = trailer span ∧ Burst 33 (bitErrors span burst) ∧ validator burst = false) ∧
      (span.length ≤ maxFrame ∧ (bitErrors span two).count true = 2 ∧ validator two = false) := by
  intro span three burst two
  have accepted : validator span = true := by decide +kernel
  have three_sized : three.length = span.length := rfl
  have burst_sized : burst.length = span.length := rfl
  have two_sized : two.length = span.length := rfl
  have odd : Odd ((bitErrors span three).count true) := by decide +kernel
  have differ : burst ≠ span := by decide +kernel
  have unchanged : trailer burst = trailer span := by decide +kernel
  have inside : Burst 33 (bitErrors span burst) := by decide +kernel
  have short : span.length ≤ maxFrame := by decide +kernel
  have pair : (bitErrors span two).count true = 2 := by decide +kernel
  refine ⟨accepted, three_sized, burst_sized, two_sized, ⟨odd, ?_⟩, ⟨differ, unchanged, inside, ?_⟩, short, pair, ?_⟩
  · exact (errors_detected accepted three_sized).1 odd
  · exact (errors_detected accepted burst_sized).2.1 differ unchanged ⟨33, inside⟩
  · exact (errors_detected accepted two_sized).2.2 short pair

end Checksum

end Hopline

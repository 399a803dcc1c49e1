import Hopline.Proofs.Bits
import Hopline.Proofs.Frame.Checksum

/-! The register of the checksum. It takes in a byte string bit by bit, each byte's highest bit first.
Every shift is linear and can be taken back, so two strings leave registers that differ by what the bits
in which the strings differ leave in an empty one. -/

namespace Hopline

/-- The bits of a byte string, each byte's highest bit first. -/
def serialBits (bytes : Bytes) : List Bool := bytes.flatMap fun byte => (lowBits byte 8).reverse

/-- The bits in which two strings of bits differ. -/
def flips (first second : List Bool) : List Bool := List.zipWith (· ^^ ·) first second

theorem serialBits_cons (byte : UInt8) (rest : Bytes) :
    serialBits (byte :: rest) = (lowBits byte 8).reverse ++ serialBits rest := List.flatMap_cons

theorem serialBits_append (first second : Bytes) :
    serialBits (first ++ second) = serialBits first ++ serialBits second := List.flatMap_append

theorem length_serialBits (bytes : Bytes) : (serialBits bytes).length = 8 * bytes.length := by
  induction bytes with
  | nil => rfl
  | cons byte rest ih =>
    rw [serialBits_cons, List.length_append, List.length_reverse, length_lowBits, ih, List.length_cons]
    omega

theorem serialBits_sized {first second : Bytes} (sized : second.length = first.length) :
    (serialBits second).length = (serialBits first).length := by
  rw [length_serialBits, length_serialBits, sized]

theorem serialBits_injective : Function.Injective serialBits := by
  intro first second same
  induction first generalizing second with
  | nil =>
    have lengths := congrArg List.length same
    rw [length_serialBits, length_serialBits, List.length_nil] at lengths
    exact (List.eq_nil_of_length_eq_zero (by omega)).symm
  | cons byte rest ih =>
    cases second with
    | nil =>
      have lengths := congrArg List.length same
      rw [length_serialBits, length_serialBits, List.length_cons, List.length_nil] at lengths
      omega
    | cons other later =>
      rw [serialBits_cons, serialBits_cons] at same
      obtain ⟨head, tail⟩ := List.append_inj same (by simp only [List.length_reverse, length_lowBits])
      rw [eq_of_lowBits_eq (List.reverse_injective head), ih tail]

theorem length_flips {first second : List Bool} (sized : second.length = first.length) :
    (flips first second).length = first.length := by
  rw [flips, List.length_zipWith, sized, Nat.min_self]

theorem flips_append {first second : List Bool} (sized : second.length = first.length) (first' second' : List Bool) :
    flips (first ++ first') (second ++ second') = flips first second ++ flips first' second' :=
  List.zipWith_append sized.symm

theorem flips_zeros (bits : List Bool) : flips (List.replicate bits.length false) bits = bits := by
  induction bits with
  | nil => rfl
  | cons bit rest ih =>
    rw [List.length_cons, List.replicate_succ, flips, List.zipWith_cons_cons, Bool.false_xor]
    exact congrArg _ ih

theorem flips_testBit (places : List Nat) (first second : Nat) :
    flips (places.map first.testBit) (places.map second.testBit) = places.map (first ^^^ second).testBit := by
  rw [flips, List.zipWith_map, List.zipWith_self]
  exact List.map_congr_left fun place _ => (Nat.testBit_xor first second place).symm

theorem flips_right_inj {first second third : List Bool} (sized : second.length = first.length)
    (sized' : third.length = first.length) : flips first second = flips first third ↔ second = third := by
  refine ⟨fun same => ?_, fun same => congrArg _ same⟩
  induction first generalizing second third with
  | nil => rw [List.eq_nil_of_length_eq_zero sized, List.eq_nil_of_length_eq_zero sized']
  | cons bit rest ih =>
    cases second with
    | nil => cases sized
    | cons head second =>
      cases third with
      | nil => cases sized'
      | cons head' third =>
        obtain ⟨heads, tails⟩ := List.cons.inj same
        rw [Bool.xor_right_inj.mp heads, ih (Nat.succ.inj sized) (Nat.succ.inj sized') tails]

theorem even_count_flips {first second : List Bool} (sized : second.length = first.length) :
    Even ((flips first second).count true) ↔ (Even (first.count true) ↔ Even (second.count true)) := by
  induction first generalizing second with
  | nil =>
    rw [List.eq_nil_of_length_eq_zero sized]
    exact ⟨fun _ => Iff.rfl, fun _ => Even.zero⟩
  | cons bit rest ih =>
    cases second with
    | nil => cases sized
    | cons head second =>
      have tails := ih (Nat.succ.inj sized)
      rw [flips, List.zipWith_cons_cons]
      cases bit <;> cases head <;>
        simp only [Bool.xor_self, Bool.false_xor, Bool.xor_false, List.count_cons_self, ne_eq, reduceCtorEq,
          not_false_eq_true, List.count_cons_of_ne, Nat.even_add_one]
      all_goals
        unfold flips at tails
        tauto

namespace Checksum

theorem top_iff (register : UInt16) : (register &&& 0x8000 != 0) = register.toNat.testBit 15 := by
  have masked : (register &&& 0x8000).toNat = (register.toNat.testBit 15).toNat * 2 ^ 15 := by
    rw [UInt16.toNat_and]
    exact Nat.and_two_pow register.toNat 15
  rw [Bool.eq_iff_iff, bne_iff_ne, ne_eq, ← UInt16.toNat_inj, masked]
  cases register.toNat.testBit 15 <;> simp

/-- What is taken off when a bit falls out at the top. -/
def carry (bit : Bool) : UInt16 := if bit then generator else 0

/-- A bit at the top of the register. -/
def top (bit : Bool) : UInt16 := if bit then 0x8000 else 0

theorem carry_xor (first second : Bool) : carry (first ^^ second) = carry first ^^^ carry second := by
  cases first <;> cases second <;> rfl

theorem top_xor (first second : Bool) : top (first ^^ second) = top first ^^^ top second := by
  cases first <;> cases second <;> rfl

theorem shift_eq (register : UInt16) : shift register = register <<< 1 ^^^ carry (register.toNat.testBit 15) := by
  unfold shift carry
  rw [top_iff]
  split
  · rfl
  · exact UInt16.xor_zero.symm

theorem shift_xor (first second : UInt16) : shift (first ^^^ second) = shift first ^^^ shift second := by
  rw [shift_eq, shift_eq, shift_eq, UInt16.shiftLeft_xor, UInt16.toNat_xor, Nat.testBit_xor, carry_xor]
  ac_rfl

theorem shift_small {value : Nat} (small : value < 2 ^ 15) :
    shift (UInt16.ofNat value) = UInt16.ofNat (2 * value) := by
  have clear : carry ((UInt16.ofNat value).toNat.testBit 15) = 0 := by
    rw [UInt16.toNat_ofNat', Nat.mod_eq_of_lt (by omega), Nat.testBit_lt_two_pow small]
    rfl
  rw [shift_eq, clear, UInt16.xor_zero, Nat.mul_comm, ← Nat.shiftLeft_eq value 1]
  exact (UInt16.ofNat_shiftLeft value 1 (by omega)).symm

theorem xor_halves (value count : Nat) : 2 ^ count * (value / 2 ^ count) ^^^ value % 2 ^ count = value := by
  apply Nat.eq_of_testBit_eq
  intro index
  rw [Nat.testBit_xor, Nat.testBit_two_pow_mul, Nat.testBit_div_two_pow, Nat.testBit_mod_two_pow]
  rcases Nat.lt_or_ge index count with low | high
  · simp [low, Nat.not_le.mpr low]
  · simp [high, Nat.not_lt.mpr high]

theorem restored (register : UInt16) : register <<< 1 >>> 1 ^^^ top (register.toNat.testBit 15) = register := by
  have bound := register.toNat_lt
  have highest : (top (register.toNat.testBit 15)).toNat = 2 ^ 15 * (register.toNat / 2 ^ 15) := by
    simp only [top, Nat.testBit_eq_decide_div_mod_eq, decide_eq_true_iff]
    split
    next => change 2 ^ 15 = _; omega
    next => change 0 = _; omega
  have others : (register <<< 1 >>> 1).toNat = register.toNat % 2 ^ 15 := by
    rw [UInt16.toNat_shiftRight, UInt16.toNat_shiftLeft, UInt16.toNat_one, show 1 % 16 = 1 from rfl,
      Nat.shiftLeft_eq, Nat.shiftRight_eq_div_pow]
    omega
  rw [← UInt16.toNat_inj, UInt16.toNat_xor, highest, others, Nat.xor_comm, xor_halves]

theorem testBit_shiftLeft (register : UInt16) (index : Nat) : (register <<< 1).toNat.testBit index =
    (decide (index < 16) && (decide (1 ≤ index) && register.toNat.testBit (index - 1))) := by
  rw [UInt16.toNat_shiftLeft, UInt16.toNat_one, show 1 % 16 = 1 from rfl, Nat.testBit_mod_two_pow,
    Nat.testBit_shiftLeft]

/-- Takes a shift back. The generator is odd, so the lowest bit tells whether it was taken off. -/
def unshift (register : UInt16) : UInt16 :=
  (register ^^^ carry (register.toNat.testBit 0)) >>> 1 ^^^ top (register.toNat.testBit 0)

theorem unshift_shift : Function.LeftInverse unshift shift := by
  intro register
  have lowest : (shift register).toNat.testBit 0 = register.toNat.testBit 15 := by
    rw [shift_eq, UInt16.toNat_xor, Nat.testBit_xor, testBit_shiftLeft]
    cases register.toNat.testBit 15 <;> rfl
  rw [unshift, lowest, shift_eq, UInt16.xor_assoc, UInt16.xor_self, UInt16.xor_zero]
  exact restored register

theorem shifts_eq_iterate (register : UInt16) (count : Nat) : shifts register count = shift^[count] register := by
  induction count generalizing register with
  | zero => rfl
  | succ count ih => exact ih (shift register)

theorem shifts_succ (register : UInt16) (count : Nat) :
    shifts register (count + 1) = shift (shifts register count) := by
  rw [shifts_eq_iterate, shifts_eq_iterate, Function.iterate_succ_apply']

theorem shifts_add (register : UInt16) (first second : Nat) :
    shifts register (first + second) = shifts (shifts register first) second := by
  rw [shifts_eq_iterate, shifts_eq_iterate, shifts_eq_iterate, Nat.add_comm, Function.iterate_add_apply]

theorem shifts_xor (first second : UInt16) (count : Nat) :
    shifts (first ^^^ second) count = shifts first count ^^^ shifts second count := by
  induction count with
  | zero => rfl
  | succ count ih => rw [shifts_succ, shifts_succ, shifts_succ, ih, shift_xor]

theorem shifts_zero (count : Nat) : shifts 0 count = 0 := by
  rw [shifts_eq_iterate]
  exact Function.iterate_fixed (shift_small (Nat.two_pow_pos 15)) count

theorem shifts_small {value count : Nat} (small : value * 2 ^ count < 2 ^ 16) :
    shifts (UInt16.ofNat value) count = UInt16.ofNat (value * 2 ^ count) := by
  induction count with
  | zero => rw [Nat.pow_zero, Nat.mul_one, shifts]
  | succ count ih =>
    rw [Nat.pow_succ, ← Nat.mul_assoc] at small ⊢
    rw [shifts_succ, ih (by omega), shift_small (by omega), Nat.mul_comm 2]

theorem unshifts_shifts (count : Nat) : Function.LeftInverse unshift^[count] (shifts · count) := by
  intro register
  beta_reduce
  rw [shifts_eq_iterate]
  exact unshift_shift.iterate count register

theorem shifts_inj {first second : UInt16} {count : Nat} : shifts first count = shifts second count ↔ first = second :=
  (unshifts_shifts count).injective.eq_iff

/-- Takes one bit into the register. -/
def takeBit (register : UInt16) (bit : Bool) : UInt16 := shift (register ^^^ top bit)

/-- Takes bits into the register, one after the other. -/
def takeBits (register : UInt16) (bits : List Bool) : UInt16 := bits.foldl takeBit register

theorem takeBits_append (register : UInt16) (first second : List Bool) :
    takeBits register (first ++ second) = takeBits (takeBits register first) second := List.foldl_append

theorem takeBit_xor (first second : UInt16) (bit bit' : Bool) :
    takeBit (first ^^^ second) (bit ^^ bit') = takeBit first bit ^^^ takeBit second bit' := by
  rw [takeBit, takeBit, takeBit, ← shift_xor, top_xor]
  congr 1
  ac_rfl

/-- What two strings of bits leave differs by what the bits in which they differ leave. -/
theorem takeBits_xor (register register' : UInt16) {first second : List Bool} (sized : second.length = first.length) :
    takeBits (register ^^^ register') (flips first second) = takeBits register first ^^^ takeBits register' second := by
  induction first generalizing register register' second with
  | nil => rw [List.eq_nil_of_length_eq_zero sized]; rfl
  | cons bit rest ih =>
    cases second with
    | nil => cases sized
    | cons bit' rest' =>
      have later := ih (takeBit register bit) (takeBit register' bit') (Nat.succ.inj sized)
      rw [← takeBit_xor] at later
      exact later

theorem takeBits_zeros (register : UInt16) (count : Nat) :
    takeBits register (List.replicate count false) = shifts register count := by
  induction count generalizing register with
  | zero => rfl
  | succ count ih =>
    rw [List.replicate_succ]
    refine (ih (takeBit register false)).trans ?_
    rw [takeBit, show top false = 0 from rfl, UInt16.xor_zero, shifts]

theorem takeBits_eq (register : UInt16) (bits : List Bool) :
    takeBits register bits = shifts register bits.length ^^^ takeBits 0 bits := by
  have linear := takeBits_xor register 0 (List.length_replicate (n := bits.length) (a := false)).symm
  rwa [UInt16.xor_zero, flips_zeros, takeBits_zeros] at linear

/-- A short string of bits enters an empty register like a number that is shifted through it. -/
theorem takeBits_number {bits : List Bool} (short : bits.length ≤ 16) :
    takeBits 0 bits = shifts (UInt16.ofNat (ofBits bits.reverse)) 16 := by
  induction bits using List.reverseRecOn with
  | nil => exact (shifts_zero 16).symm
  | append_singleton bits bit ih =>
    rw [List.length_append, List.length_singleton] at short
    have small : ofBits bits.reverse < 2 ^ 15 :=
      (ofBits_lt _).trans_le (Nat.pow_le_pow_right (by omega) (by rw [List.length_reverse]; omega))
    have entered : top bit = shifts (UInt16.ofNat bit.toNat) 15 := by
      rw [shifts_small (by cases bit <;> decide)]
      cases bit <;> rfl
    have added : UInt16.ofNat (2 * ofBits bits.reverse) ^^^ UInt16.ofNat bit.toNat =
        UInt16.ofNat (ofBits (bits ++ [bit]).reverse) := by
      have halves := xor_halves (bit.toNat + 2 * ofBits bits.reverse) 1
      have upper : (bit.toNat + 2 * ofBits bits.reverse) / 2 ^ 1 = ofBits bits.reverse := by cases bit <;> grind
      have lowest : (bit.toNat + 2 * ofBits bits.reverse) % 2 ^ 1 = bit.toNat := by cases bit <;> grind
      rw [upper, lowest, Nat.pow_one] at halves
      rw [← UInt16.ofNat_xor, List.reverse_append, List.reverse_singleton, List.singleton_append, ofBits, halves]
    calc takeBits 0 (bits ++ [bit])
      _ = shift (takeBits 0 bits ^^^ top bit) := takeBits_append 0 bits [bit]
      _ = shift (shifts (UInt16.ofNat (ofBits bits.reverse)) 16) ^^^ shift (shifts (UInt16.ofNat bit.toNat) 15) := by
        rw [shift_xor, ih (by omega), entered]
      _ = shifts (UInt16.ofNat (2 * ofBits bits.reverse)) 16 ^^^ shifts (UInt16.ofNat bit.toNat) 16 := by
        rw [← shifts_succ, ← shifts_succ, ← shift_small small, ← shifts]
      _ = shifts (UInt16.ofNat (ofBits (bits ++ [bit]).reverse)) 16 := by rw [← shifts_xor, added]

theorem absorb_eq (register : UInt16) (byte : UInt8) :
    absorb register byte = takeBits register (lowBits byte 8).reverse := by
  have bound := byte.toNat_lt
  have entered : byte.toUInt16 <<< 8 = shifts (UInt16.ofNat byte.toNat) 8 := by
    rw [shifts_small (by omega), ← Nat.shiftLeft_eq]
    have widened := UInt16.ofNat_shiftLeft byte.toNat 8 (by omega)
    rw [UInt16.ofNat_uInt8ToNat] at widened
    exact widened.symm
  have sized : (lowBits byte 8).reverse.length = 8 := by rw [List.length_reverse, length_lowBits]
  rw [absorb, shifts_xor, takeBits_eq, takeBits_number (by omega), List.reverse_reverse, ofBits_lowBits,
    Nat.mod_eq_of_lt bound, sized, entered, ← shifts_add]

theorem checksum_eq (data : Bytes) : checksum data = takeBits preset (serialBits data) := by
  unfold checksum
  generalize preset = register
  induction data generalizing register with
  | nil => rfl
  | cons byte rest ih => rw [List.foldl_cons, serialBits_cons, takeBits_append, ← absorb_eq, ih]

end Checksum

end Hopline

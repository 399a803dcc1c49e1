import Hopline.Proofs.Frame.ShiftRegister

/-! The checksum as the remainder of a division. A string of bits is a polynomial over the field of two elements,
and so is the register. Each shift is one step of a long division by the generator: the register is multiplied by
the unknown, and the generator is taken off when the product reaches its degree. -/

namespace Hopline

open Polynomial

def coefficient (bit : Bool) : ZMod 2 := if bit then 1 else 0

@[simp] theorem coefficient_false : coefficient false = 0 := rfl

@[simp] theorem coefficient_true : coefficient true = 1 := rfl

theorem coefficient_xor (first second : Bool) :
    coefficient (first ^^ second) = coefficient first + coefficient second := by
  cases first <;> cases second <;> rfl

/-- The polynomial whose coefficients are given, that of the highest power first. -/
noncomputable def polynomial : List Bool → (ZMod 2)[X]
  | [] => 0
  | bit :: rest => C (coefficient bit) * X ^ rest.length + polynomial rest

/-- The bytes in which two byte strings differ, with a bit set for every bit that does. -/
def differences (first second : Bytes) : Bytes := List.zipWith (· ^^^ ·) first second

theorem length_differences {first second : Bytes} (sized : second.length = first.length) :
    (differences first second).length = first.length := by
  rw [differences, List.length_zipWith, sized, Nat.min_self]

theorem serialBits_differences {first second : Bytes} (sized : second.length = first.length) :
    serialBits (differences first second) = flips (serialBits first) (serialBits second) := by
  induction first generalizing second with
  | nil => rfl
  | cons byte rest ih =>
    cases second with
    | nil => cases sized
    | cons other later =>
      have bits : (lowBits (byte ^^^ other) 8).reverse = flips (lowBits byte 8).reverse (lowBits other 8).reverse := by
        rw [lowBits, lowBits, lowBits, ← List.map_reverse, ← List.map_reverse, ← List.map_reverse, flips_testBit,
          UInt8.toNat_xor]
      rw [differences, List.zipWith_cons_cons, serialBits_cons, serialBits_cons, serialBits_cons,
        flips_append (by simp only [List.length_reverse, length_lowBits]), bits]
      exact congrArg _ (ih (Nat.succ.inj sized))

namespace Checksum

/-- The generator with its leading term. -/
noncomputable def divisor : (ZMod 2)[X] := X ^ 16 + X ^ 12 + X ^ 5 + 1

/-- The bytes as a polynomial, moved up to make room for the checksum, with ones added to the sixteen highest
coefficients. -/
noncomputable def dividend (data : Bytes) : (ZMod 2)[X] :=
  (∑ power ∈ Finset.range 16, X ^ power) * X ^ (8 * data.length) + polynomial (serialBits data) * X ^ 16

noncomputable def residue (register : UInt16) : (ZMod 2)[X] :=
  ofFn 16 fun power => coefficient (register.toNat.testBit power)

theorem testBit_high (register : UInt16) {index : Nat} (high : 16 ≤ index) : register.toNat.testBit index = false :=
  Nat.testBit_lt_two_pow (register.toNat_lt.trans_le (Nat.pow_le_pow_right Nat.two_pos high))

theorem coeff_residue (register : UInt16) (power : Nat) :
    (residue register).coeff power = coefficient (register.toNat.testBit power) := by
  rcases Nat.lt_or_ge power 16 with low | high
  · exact ofFn_coeff_eq_val_of_lt _ low
  · rw [testBit_high register high]
    exact ofFn_coeff_eq_zero_of_ge _ high

theorem residue_xor (first second : UInt16) : residue (first ^^^ second) = residue first + residue second := by
  ext power
  rw [coeff_add, coeff_residue, coeff_residue, coeff_residue, UInt16.toNat_xor, Nat.testBit_xor, coefficient_xor]

theorem residue_zero : residue 0 = 0 := by
  ext power
  rw [coeff_residue, coeff_zero, UInt16.toNat_zero, Nat.zero_testBit, coefficient_false]

theorem residue_two_pow {place : Nat} (inside : place < 16) : residue (UInt16.ofNat (2 ^ place)) = X ^ place := by
  ext power
  have small : 2 ^ place < 2 ^ 16 := Nat.pow_lt_pow_right Nat.one_lt_two inside
  rw [coeff_residue, coeff_X_pow, UInt16.toNat_ofNat', Nat.mod_eq_of_lt small, Nat.testBit_two_pow]
  exact if_congr (decide_eq_true_iff.trans eq_comm) rfl rfl

theorem residue_preset : residue preset = ∑ power ∈ Finset.range 16, X ^ power := by
  ext power
  have ones : preset.toNat.testBit power = decide (power < 16) := Nat.testBit_two_pow_sub_one 16 power
  simp only [coeff_residue, ones, coefficient, decide_eq_true_iff, finsetSum_coeff, coeff_X_pow, Finset.sum_ite_eq,
    Finset.mem_range]

theorem residue_top (bit : Bool) : residue (top bit) = C (coefficient bit) * X ^ 15 := by
  cases bit with
  | false => rw [show top false = 0 from rfl, residue_zero, coefficient_false, C_0, zero_mul]
  | true =>
    have term : top true = UInt16.ofNat (2 ^ 15) := rfl
    rw [term, residue_two_pow (by decide), coefficient_true, C_1, one_mul]

theorem residue_carry (bit : Bool) : residue (carry bit) = C (coefficient bit) * (X ^ 12 + X ^ 5 + 1) := by
  cases bit with
  | false => rw [show carry false = 0 from rfl, residue_zero, coefficient_false, C_0, zero_mul]
  | true =>
    have terms : carry true = UInt16.ofNat (2 ^ 12) ^^^ UInt16.ofNat (2 ^ 5) ^^^ UInt16.ofNat (2 ^ 0) := rfl
    rw [terms, residue_xor, residue_xor, residue_two_pow (by decide), residue_two_pow (by decide),
      residue_two_pow (by decide), pow_zero, coefficient_true, C_1, one_mul]

/-- Without the bit that falls out at the top, the register is multiplied. -/
theorem residue_shiftLeft (register : UInt16) :
    residue (register <<< 1) + C (coefficient (register.toNat.testBit 15)) * X ^ 16 = X * residue register := by
  ext power
  rw [coeff_add, coeff_C_mul_X_pow, coeff_residue, testBit_shiftLeft]
  cases power with
  | zero => simp
  | succ power =>
    rw [coeff_X_mul, coeff_residue]
    rcases Nat.lt_trichotomy power 15 with below | rfl | above
    · have inside : power + 1 < 16 := by omega
      simp [inside, below.ne]
    · simp
    · have outside : ¬power + 1 < 16 := by omega
      simp [outside, above.ne', testBit_high register above]

/-- One step of the division. -/
theorem residue_shift (register : UInt16) :
    X * residue register = C (coefficient (register.toNat.testBit 15)) * divisor + residue (shift register) := by
  have multiplied := residue_shiftLeft register
  have twice : (2 : (ZMod 2)[X]) = 0 := CharTwo.two_eq_zero
  rw [shift_eq, residue_xor, residue_carry, divisor]
  linear_combination -multiplied - C (coefficient (register.toNat.testBit 15)) * (X ^ 12 + X ^ 5 + 1) * twice

/-- Taking bits in is a long division, whatever the register held before. -/
theorem exists_quotient (register : UInt16) (bits : List Bool) : ∃ quotient,
    residue register * X ^ bits.length + polynomial bits * X ^ 16 =
      quotient * divisor + residue (takeBits register bits) := by
  induction bits generalizing register with
  | nil => exact ⟨0, by simp [polynomial, takeBits]⟩
  | cons bit rest ih =>
    obtain ⟨quotient, divided⟩ := ih (takeBit register bit)
    have step := residue_shift (register ^^^ top bit)
    rw [residue_xor, residue_top] at step
    -- The bits that fall out at the top are the coefficients of the quotient.
    refine ⟨C (coefficient ((register ^^^ top bit).toNat.testBit 15)) * X ^ rest.length + quotient, ?_⟩
    rw [show takeBits register (bit :: rest) = takeBits (takeBit register bit) rest from rfl, polynomial,
      List.length_cons]
    rw [takeBit] at divided ⊢
    linear_combination X ^ rest.length * step + divided

theorem takeBits_differences (register register' : UInt16) {first second : Bytes}
    (sized : second.length = first.length) :
    takeBits (register ^^^ register') (serialBits (differences first second)) =
      takeBits register (serialBits first) ^^^ takeBits register' (serialBits second) := by
  rw [serialBits_differences sized]
  exact takeBits_xor register register' (serialBits_sized sized)

theorem degree_divisor : degree divisor = 16 := by
  unfold divisor
  compute_degree!

theorem degree_residue_lt (register : UInt16) : degree (residue register) < degree divisor := by
  rw [degree_divisor]
  exact ofFn_degree_lt _

theorem dividend_mod (data : Bytes) : dividend data % divisor = residue (checksum data) := by
  obtain ⟨quotient, divided⟩ := exists_quotient preset (serialBits data)
  rw [residue_preset, length_serialBits, ← checksum_eq] at divided
  have nonzero : divisor ≠ 0 := ne_zero_of_degree_gt (degree_residue_lt 0)
  rw [dividend, divided, add_mod, EuclideanDomain.mod_eq_zero.mpr (Dvd.intro_left quotient rfl), zero_add,
    (mod_eq_self_iff nonzero).mpr (degree_residue_lt _)]

/-- The checksum is what the division of the data by the generator leaves, one bit for each coefficient. It is
linear but for the preset, which three strings of one length take in an odd number of times. -/
theorem checksum_is_remainder :
    (∀ data power, (dividend data % divisor).coeff power = coefficient ((checksum data).toNat.testBit power)) ∧
    ∀ first second third : Bytes, second.length = first.length → third.length = first.length →
      checksum first ^^^ checksum second ^^^ checksum third =
        checksum (differences (differences first second) third) := by
  refine ⟨?remainder, ?linear⟩
  case remainder =>
    intro data power
    rw [dividend_mod, coeff_residue]
  case linear =>
    intro first second third sized sized'
    have sized_pair : third.length = (differences first second).length := sized'.trans (length_differences sized).symm
    have presets : preset ^^^ preset ^^^ preset = preset := rfl
    calc checksum first ^^^ checksum second ^^^ checksum third
      _ = takeBits (preset ^^^ preset) (serialBits (differences first second)) ^^^ checksum third := by
        rw [takeBits_differences _ _ sized, checksum_eq, checksum_eq]
      _ = takeBits (preset ^^^ preset ^^^ preset) (serialBits (differences (differences first second) third)) := by
        rw [takeBits_differences _ _ sized_pair, checksum_eq]
      _ = checksum (differences (differences first second) third) := by rw [presets, checksum_eq]

/-- The check value of the nine digits. -/
theorem checksum_is_remainder_digits :
    let digits : Bytes := [0x31, 0x32, 0x33, 0x34, 0x35, 0x36, 0x37, 0x38, 0x39]
    let reversed : Bytes := [0x39, 0x38, 0x37, 0x36, 0x35, 0x34, 0x33, 0x32, 0x31]
    let ends : Bytes := [0x00, 0x01, 0x7F, 0x80, 0xFF, 0x00, 0x10, 0x21, 0xFF]
    (∀ power, (dividend digits % divisor).coeff power = coefficient (Nat.testBit 0x29B1 power)) ∧
    reversed.length = digits.length ∧ ends.length = digits.length ∧
    checksum digits ^^^ checksum reversed ^^^ checksum ends =
      checksum (differences (differences digits reversed) ends) := by
  intro digits reversed ends
  have value : (checksum digits).toNat = 0x29B1 := by decide +kernel
  have sized : reversed.length = digits.length := rfl
  have sized' : ends.length = digits.length := rfl
  refine ⟨?_, sized, sized', checksum_is_remainder.2 digits reversed ends sized sized'⟩
  intro power
  rw [checksum_is_remainder.1 digits power, value]

end Checksum

end Hopline

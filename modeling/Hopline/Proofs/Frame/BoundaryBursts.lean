import Hopline.Proofs.Frame.ErrorDetection

/-! Bursts across the boundary between body and trailer. The register takes a body in highest bit first, but a
trailer holds it low byte first, so a burst that runs over the boundary is not one burst to the register.
Twelve such bursts go unnoticed, whatever the span. -/

namespace Hopline

namespace Checksum

/-- The bursts across the boundary that go unnoticed. Each is a number: the errors up to the end of the span,
highest bit first. -/
def slippingBursts : List Nat :=
  [0x12110, 0x24220, 0x36330, 0x48440, 0x5A550, 0x6C660, 0x7E770, 0x89A100, 0x2359400, 0x8C54000, 0x118A8000,
    0x194FC000]

/-- The number that a trailer shows when its bits are read highest bit first. -/
def storedNumber (register : UInt16) : Nat := register.toNat / 256 + 256 * (register.toNat % 256)

theorem ofBits_storedBits (register : UInt16) : ofBits (storedBits register).reverse = storedNumber register := by
  have bound := register.toNat_lt
  rw [← serialBits_littleEndian]
  simp only [size, littleEndian, serialBits, List.flatMap_cons, List.flatMap_nil, List.append_nil, List.reverse_append,
    List.reverse_reverse, ofBits_append, ofBits_lowBits, length_lowBits, UInt8.toNat_ofNat']
  unfold storedNumber
  omega

/-- Errors at the end of a body and at the front of a trailer, both as numbers, that make one burst. -/
def OneBurst (head tail : Nat) : Prop := tail % 2 ^ (head.log2 + 1) = 0

instance (head tail : Nat) : Decidable (OneBurst head tail) := inferInstanceAs (Decidable (_ = 0))

/-- With up to eight errors in the body, the trailer is computed for each of them. -/
theorem slips_of_head : ∀ head < 256, 0 < head → OneBurst head (storedNumber (shifts (UInt16.ofNat head) 16)) →
    storedNumber (shifts (UInt16.ofNat head) 16) + 2 ^ 16 * head ∈ slippingBursts := by decide +kernel

/-- With up to eight errors in the trailer, the body is found by taking the register back. -/
theorem slips_of_tail : ∀ register < 256, 0 < (unshift^[16] (UInt16.ofNat register)).toNat →
    OneBurst (unshift^[16] (UInt16.ofNat register)).toNat (256 * register) →
    256 * register + 2 ^ 16 * (unshift^[16] (UInt16.ofNat register)).toNat ∈ slippingBursts := by decide +kernel

theorem stored_of_slips : ∀ number ∈ slippingBursts,
    storedNumber (shifts (UInt16.ofNat (number / 2 ^ 16)) 16) = number % 2 ^ 16 := by decide +kernel

/-- The low byte of a register is stored first, so errors in the front of a trailer only are a small register. -/
theorem slips_of_whole {head : Nat} (positive : 0 < head) (bounded : head < 2 ^ 16)
    (whole : 256 ∣ storedNumber (shifts (UInt16.ofNat head) 16))
    (burst : OneBurst head (storedNumber (shifts (UInt16.ofNat head) 16))) :
    storedNumber (shifts (UInt16.ofNat head) 16) + 2 ^ 16 * head ∈ slippingBursts := by
  have back : (unshift^[16] (shifts (UInt16.ofNat head) 16)).toNat = head := by
    refine (congrArg UInt16.toNat (unshifts_shifts 16 (UInt16.ofNat head))).trans ?_
    rw [UInt16.toNat_ofNat', Nat.mod_eq_of_lt bounded]
  generalize shifts (UInt16.ofNat head) 16 = register at *
  have few : register.toNat < 256 := by
    have bound := register.toNat_lt
    unfold storedNumber at whole
    omega
  have shown : storedNumber register = 256 * register.toNat := by
    unfold storedNumber
    omega
  have slips := slips_of_tail register.toNat few
  rw [UInt16.ofNat_toNat, back, ← shown] at slips
  exact slips positive burst

theorem stored_iff_slips {head tail width : Nat} (error : 0 < tail + 2 ^ 16 * head) (narrow : width < 16)
    (before : head < 2 ^ width) (behind : 2 ^ width ∣ tail) (inside : tail < 2 ^ 16) :
    storedNumber (shifts (UInt16.ofNat head) 16) = tail ↔ tail + 2 ^ 16 * head ∈ slippingBursts := by
  constructor
  · rintro rfl
    have positive : 0 < head := by
      rcases Nat.eq_zero_or_pos head with rfl | positive
      · have empty : storedNumber (shifts (UInt16.ofNat 0) 16) = 0 := congrArg storedNumber (shifts_zero 16)
        omega
      · exact positive
    have reach : head.log2 + 1 ≤ width := (Nat.log2_lt positive.ne').mpr before
    have burst : OneBurst head (storedNumber (shifts (UInt16.ofNat head) 16)) :=
      Nat.mod_eq_zero_of_dvd ((pow_dvd_pow 2 reach).trans behind)
    -- A burst of sixteen bits has at most eight of them on one side of the boundary.
    rcases Nat.le_total width 8 with short | long
    · have few : head < 256 := before.trans_le (Nat.pow_le_pow_right Nat.two_pos short)
      exact slips_of_head head few positive burst
    · have bounded : head < 2 ^ 16 := before.trans_le (Nat.pow_le_pow_right Nat.two_pos narrow.le)
      exact slips_of_whole positive bounded ((pow_dvd_pow 2 long).trans behind) burst
  · intro member
    have stored := stored_of_slips _ member
    have high : (tail + 2 ^ 16 * head) / 2 ^ 16 = head := by omega
    have low : (tail + 2 ^ 16 * head) % 2 ^ 16 = tail := by omega
    rwa [high, low] at stored

section

variable {before behind : List Bool} {start : Nat}

theorem ofBits_of_late (late : ∀ index, before[index]? = some true → start ≤ index) :
    ofBits before.reverse = ofBits (before.drop start).reverse := by
  conv => lhs; rw [zeros_before late]
  rw [List.reverse_append, ofBits_append, List.reverse_replicate, ofBits_replicate_false, Nat.mul_zero, Nat.add_zero]

theorem takeBits_of_late (late : ∀ index, before[index]? = some true → start ≤ index)
    (short : before.length ≤ start + 16) :
    takeBits 0 before = shifts (UInt16.ofNat (ofBits before.reverse)) 16 := by
  have fits : (before.drop start).length ≤ 16 := by
    rw [List.length_drop]
    omega
  rw [ofBits_of_late late]
  conv => lhs; rw [zeros_before late]
  rw [takeBits_append, takeBits_zeros, shifts_zero, takeBits_number fits]

theorem lt_of_late (late : ∀ index, before[index]? = some true → start ≤ index) :
    ofBits before.reverse < 2 ^ (before.length - start) := by
  have bound := ofBits_lt (before.drop start).reverse
  rwa [List.length_reverse, List.length_drop, ← ofBits_of_late late] at bound

theorem dvd_of_early {stop : Nat} (early : ∀ index, behind[index]? = some true → index < stop) :
    2 ^ (behind.length - stop) ∣ ofBits behind.reverse := by
  have shifted : ofBits behind.reverse = 2 ^ (behind.length - stop) * ofBits (behind.take stop).reverse := by
    conv => lhs; rw [zeros_after early]
    rw [List.reverse_append, ofBits_append, List.reverse_replicate, ofBits_replicate_false, Nat.zero_add,
      List.length_replicate, List.length_drop]
  exact Dvd.intro _ shifted.symm

theorem unnoticed_iff_slips (sized : behind.length = 16) (begins : start < before.length)
    (ends : before.length < start + 16) (burst : Burst start (before ++ behind)) (error : true ∈ before ++ behind) :
    Unnoticed before behind ↔ ofBits (before ++ behind).reverse ∈ slippingBursts := by
  have late (index : Nat) (set : before[index]? = some true) : start ≤ index := (burst.left index set).1
  have early (index : Nat) (set : behind[index]? = some true) : index < start + 16 - before.length := by
    have shifted : (before ++ behind)[before.length + index]? = some true := by
      rw [List.getElem?_append_right (Nat.le_add_right _ _), Nat.add_sub_cancel_left, set]
    have bound := (burst _ shifted).2
    omega
  have width : behind.length - (start + 16 - before.length) = before.length - start := by omega
  have divides := dvd_of_early early
  have bounded := ofBits_lt behind.reverse
  rw [width] at divides
  rw [List.length_reverse, sized] at bounded
  have number : ofBits (before ++ behind).reverse = ofBits behind.reverse + 2 ^ 16 * ofBits before.reverse := by
    rw [List.reverse_append, ofBits_append, List.length_reverse, sized]
  have positive : 0 < ofBits behind.reverse + 2 ^ 16 * ofBits before.reverse := by
    rw [← number]
    apply Nat.pos_of_ne_zero
    intro zero
    exact not_mem_of_ofBits_eq_zero zero (List.mem_reverse.mpr error)
  have same_size : behind.reverse.length = (storedBits (takeBits 0 before)).reverse.length := by
    rw [List.length_reverse, List.length_reverse, sized, length_storedBits]
  rw [number, ← stored_iff_slips positive (by omega) (lt_of_late late) divides bounded, ← takeBits_of_late late ends.le,
    ← ofBits_storedBits, ofBits_inj same_size, List.reverse_inj, Unnoticed]

end

/-- A span that differs from an accepted one in a burst across the boundary is accepted for these bursts only. -/
theorem boundary_burst_accepted_iff {span other : Bytes} {start : Nat} (accepted : validator span = true)
    (sized : other.length = span.length) (differ : other ≠ span) (begins : start < 8 * (body span).length)
    (ends : 8 * (body span).length < start + 16) (burst : Burst start (bitErrors span other)) :
    validator other = true ↔ ofBits (bitErrors span other).reverse ∈ slippingBursts := by
  have long := long_of_accepted accepted
  have error : true ∈ bitErrors span other := by
    by_contra clear
    exact differ (eq_of_no_error sized clear)
  rw [← length_bitErrors (body_sized sized)] at begins ends
  rw [bitErrors_split sized] at burst error ⊢
  rw [accepts_other_iff accepted sized]
  apply unnoticed_iff_slips _ begins ends burst error
  rw [length_bitErrors (trailer_sized long sized), length_trailer long, size]

/-- Two flipped bits at the end of a body, and the trailer that hides them. -/
theorem boundary_burst_accepted_digits :
    let span : Bytes := [0x31, 0x32, 0x33, 0x34, 0x35, 0x36, 0x37, 0x38, 0x39, 0xB1, 0x29]
    let other : Bytes := [0x31, 0x32, 0x33, 0x34, 0x35, 0x36, 0x37, 0x38, 0x3A, 0xD2, 0x19]
    validator span = true ∧ other.length = span.length ∧ other ≠ span ∧ 70 < 8 * (body span).length ∧
      8 * (body span).length < 70 + 16 ∧ Burst 70 (bitErrors span other) ∧ validator other = true := by
  intro span other
  have accepted : validator span = true := by decide +kernel
  have sized : other.length = span.length := rfl
  have differ : other ≠ span := by decide +kernel
  have begins : 70 < 8 * (body span).length := by decide +kernel
  have ends : 8 * (body span).length < 70 + 16 := by decide +kernel
  have burst : Burst 70 (bitErrors span other) := by decide +kernel
  have slips : ofBits (bitErrors span other).reverse ∈ slippingBursts := by decide +kernel
  refine ⟨accepted, sized, differ, begins, ends, burst, ?_⟩
  exact (boundary_burst_accepted_iff accepted sized differ begins ends burst).mpr slips

/-- A burst across the boundary need not be noticed. -/
theorem boundary_burst_slips :
    let span : Bytes := [0x31, 0x32, 0x33, 0x34, 0x35, 0x36, 0x37, 0x38, 0x39, 0xB1, 0x29]
    let other : Bytes := [0x31, 0x32, 0x33, 0x34, 0x35, 0x36, 0x37, 0x38, 0x38, 0x90, 0x39]
    3 ≤ span.length ∧ validator span = true ∧ other.length = span.length ∧ other ≠ span ∧
      71 < 8 * (body span).length ∧ 8 * (body span).length < 71 + 16 ∧ Burst 71 (bitErrors span other) ∧
      validator other = true := by decide +kernel

end Checksum

end Hopline

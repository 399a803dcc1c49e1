import Hopline.Proofs.Bytes

/-! Bytes as bits. Packed fields cross byte boundaries, so both cursors are compared
with one long string of bits, in which each byte's lowest bit comes first. -/

namespace Hopline

/-- The bits of a byte string, each byte's lowest bit first. -/
def bitString (bytes : Bytes) : List Bool := bytes.flatMap fun byte => lowBits byte 8

/-- Zero bits that fill the last byte up when there are `count` bits. -/
def padding (count : Nat) : List Bool := List.replicate ((8 - count % 8) % 8) false

theorem lowBits_succ (value : UInt8) (width : Nat) :
    lowBits value (width + 1) = lowBits value width ++ [value.toNat.testBit width] := by
  simp only [lowBits, List.range_succ, List.map_append, List.map_singleton]

theorem lowBits_cons (value : UInt8) (width : Nat) :
    lowBits value (width + 1) = (value &&& 1 == 1) :: lowBits (value >>> 1) width := by
  have lowest : (value &&& 1 == 1) = value.toNat.testBit 0 := by
    rw [Nat.testBit_zero, Bool.eq_iff_iff, beq_iff_eq, decide_eq_true_iff, ← UInt8.toNat_inj,
      UInt8.toNat_and, UInt8.toNat_one, Nat.and_one_is_mod]
  have shifted (index : Nat) : value.toNat.testBit (index + 1) = (value >>> 1).toNat.testBit index := by
    rw [UInt8.toNat_shiftRight, Nat.testBit_shiftRight, UInt8.toNat_one, Nat.add_comm index 1]
  simp only [lowBits, List.range_succ_eq_map, List.map_cons, List.map_map, lowest]
  congr 1
  exact List.map_congr_left fun index _ => shifted index

theorem getElem?_lowBits (value : UInt8) (width index : Nat) :
    (lowBits value width)[index]? = if index < width then some (value.toNat.testBit index) else none := by
  simp only [lowBits, List.getElem?_map]
  split
  next inside => simp [inside]
  next outside => simp [outside]

theorem testBit_ofBits (bits : List Bool) (index : Nat) :
    (ofBits bits).testBit index = bits[index]?.getD false := by
  induction bits generalizing index with
  | nil => simp [ofBits]
  | cons bit rest ih =>
    cases index with
    | zero => cases bit <;> simp [ofBits, Nat.testBit_zero, Nat.add_mod]
    | succ index =>
      have halved : (ofBits (bit :: rest)) / 2 = ofBits rest := by
        cases bit <;> simp only [ofBits, Bool.toNat_true, Bool.toNat_false] <;> omega
      rw [← Nat.testBit_div_two, halved, ih, List.getElem?_cons_succ]

theorem ofBits_lt (bits : List Bool) : ofBits bits < 2 ^ bits.length := by
  induction bits with
  | nil => simp [ofBits]
  | cons bit rest ih =>
    rw [ofBits, List.length_cons, Nat.pow_succ]
    cases bit <;> simp only [Bool.toNat_true, Bool.toNat_false] <;> omega

theorem ofBits_append (first second : List Bool) :
    ofBits (first ++ second) = ofBits first + 2 ^ first.length * ofBits second := by
  induction first with
  | nil => simp [ofBits]
  | cons bit rest ih =>
    rw [List.cons_append, ofBits, ofBits, ih, List.length_cons, Nat.pow_succ]
    ring

theorem ofBits_replicate_false (count : Nat) : ofBits (List.replicate count false) = 0 := by
  induction count with
  | zero => rfl
  | succ count ih => simp only [List.replicate_succ, ofBits, ih, Bool.toNat_false]

theorem ofBits_inj {first second : List Bool} (sized : second.length = first.length) :
    ofBits first = ofBits second ↔ first = second := by
  refine ⟨fun same => ?_, fun same => congrArg _ same⟩
  apply List.ext_getElem sized.symm
  intro index inside inside'
  have bits := congrArg (Nat.testBit · index) same
  simpa only [testBit_ofBits, List.getElem?_eq_getElem inside, List.getElem?_eq_getElem inside', Option.getD_some] using bits

theorem not_mem_of_ofBits_eq_zero {bits : List Bool} (zero : ofBits bits = 0) : true ∉ bits := by
  intro member
  obtain ⟨index, found⟩ := List.mem_iff_getElem?.mp member
  have set := testBit_ofBits bits index
  rw [zero, Nat.zero_testBit, found] at set
  cases set

theorem lowBits_ofNat (value : Nat) : lowBits (UInt8.ofNat value) 8 = (List.range 8).map value.testBit := by
  apply List.map_congr_left
  intro index inside
  rw [UInt8.toNat_ofNat', Nat.testBit_mod_two_pow, decide_eq_true (List.mem_range.mp inside), Bool.true_and]

theorem ofBits_lowBits (value : UInt8) (width : Nat) :
    ofBits (lowBits value width) = value.toNat % 2 ^ width := by
  apply Nat.eq_of_testBit_eq
  intro index
  rw [testBit_ofBits, getElem?_lowBits, Nat.testBit_mod_two_pow]
  split
  next inside => simp [inside]
  next outside => simp [outside]

theorem toNat_ofBits {bits : List Bool} (short : bits.length ≤ 8) :
    (UInt8.ofNat (ofBits bits)).toNat = ofBits bits := by
  rw [UInt8.toNat_ofNat']
  exact Nat.mod_eq_of_lt ((ofBits_lt bits).trans_le (Nat.pow_le_pow_right (by omega) short))

theorem lowBits_ofBits {bits : List Bool} (short : bits.length ≤ 8) :
    lowBits (UInt8.ofNat (ofBits bits)) bits.length = bits := by
  apply List.ext_getElem?
  intro index
  rw [getElem?_lowBits, toNat_ofBits short, testBit_ofBits]
  split
  next inside => simp [inside]
  next outside => simp [List.getElem?_eq_none (Nat.le_of_not_lt outside)]

/-- A byte below a power of two ends in zero bits. -/
theorem lowBits_add_of_lt {value : UInt8} {width : Nat} (small : value.toNat < 2 ^ width)
    (extra : Nat) : lowBits value (width + extra) = lowBits value width ++ List.replicate extra false := by
  induction extra with
  | zero => simp
  | succ extra ih =>
    have clear : value.toNat.testBit (width + extra) = false :=
      Nat.testBit_lt_two_pow (small.trans_le (Nat.pow_le_pow_right (by omega) (by omega)))
    rw [← Nat.add_assoc, lowBits_succ, ih, clear, List.append_assoc, List.replicate_succ']

theorem eq_of_lowBits_eq {first second : UInt8} (same : lowBits first 8 = lowBits second 8) :
    first = second := by
  have equal : first.toNat % 2 ^ 8 = second.toNat % 2 ^ 8 := by
    rw [← ofBits_lowBits, ← ofBits_lowBits, same]
  rw [← UInt8.toNat_inj]
  have bound := first.toNat_lt
  have bound' := second.toNat_lt
  omega

@[simp] theorem bitString_nil : bitString [] = [] := rfl

theorem bitString_cons (byte : UInt8) (rest : Bytes) :
    bitString (byte :: rest) = lowBits byte 8 ++ bitString rest := rfl

theorem bitString_singleton (byte : UInt8) : bitString [byte] = lowBits byte 8 := by
  rw [bitString_cons, bitString_nil, List.append_nil]

@[simp] theorem bitString_append (first second : Bytes) :
    bitString (first ++ second) = bitString first ++ bitString second := List.flatMap_append

@[simp] theorem length_bitString (bytes : Bytes) : (bitString bytes).length = 8 * bytes.length := by
  induction bytes with
  | nil => rfl
  | cons byte rest ih =>
    rw [bitString_cons, List.length_append, length_lowBits, ih, List.length_cons]
    omega

/-- A byte string is found at the front of another one as soon as its bits are. -/
theorem exists_eq_append_of_bitString {field bytes : Bytes} {later : List Bool}
    (found : bitString bytes = bitString field ++ later) :
    ∃ rest, bytes = field ++ rest ∧ later = bitString rest := by
  induction field generalizing bytes with
  | nil => exact ⟨bytes, rfl, found.symm⟩
  | cons byte field ih =>
    cases bytes with
    | nil =>
      have lengths := congrArg List.length found
      simp only [length_bitString, List.length_append, List.length_cons, List.length_nil] at lengths
      omega
    | cons first bytes =>
      rw [bitString_cons, bitString_cons, List.append_assoc] at found
      obtain ⟨head, tail⟩ := List.append_inj found (by simp only [length_lowBits])
      obtain ⟨rest, rfl, same⟩ := ih tail
      exact ⟨rest, by rw [eq_of_lowBits_eq head, List.cons_append], same⟩

theorem eq_of_bitString_eq {first second : Bytes} (same : bitString first = bitString second) :
    first = second := by
  obtain ⟨rest, rfl, empty⟩ := exists_eq_append_of_bitString (same.trans (List.append_nil _).symm)
  have lengths := congrArg List.length empty
  simp only [List.length_nil, length_bitString] at lengths
  have none_left : rest = [] := List.eq_nil_of_length_eq_zero (by omega)
  rw [none_left, List.append_nil]

theorem padding_of_aligned {count : Nat} (aligned : count % 8 = 0) : padding count = [] := by
  simp [padding, aligned]

end Hopline

import Hopline.Bytes
import Mathlib

/-! Fixed-width numbers read back as themselves, modulo their width. -/

namespace Hopline

theorem ofLittleEndian_littleEndian (width value : Nat) :
    ofLittleEndian (littleEndian width value) = value % 256 ^ width := by
  induction width generalizing value with
  | zero => simp only [littleEndian, ofLittleEndian, Nat.pow_zero, Nat.mod_one]
  | succ width ih =>
    rw [littleEndian, ofLittleEndian, ih, UInt8.toNat_ofNat', show 2 ^ 8 = 256 from rfl,
      Nat.pow_succ', Nat.mod_mul]

theorem ofLittleEndian_lt (bytes : Bytes) : ofLittleEndian bytes < 256 ^ bytes.length := by
  induction bytes with
  | nil => exact Nat.one_pos
  | cons digit rest ih =>
    have small := digit.toNat_lt
    rw [ofLittleEndian, List.length_cons, Nat.pow_succ]
    omega

theorem littleEndian_ofLittleEndian (bytes : Bytes) :
    littleEndian bytes.length (ofLittleEndian bytes) = bytes := by
  induction bytes with
  | nil => rfl
  | cons digit rest ih =>
    have small := digit.toNat_lt
    have low : UInt8.ofNat (digit.toNat + 256 * ofLittleEndian rest) = digit := by
      rw [← UInt8.toNat_inj, UInt8.toNat_ofNat']
      omega
    have high : (digit.toNat + 256 * ofLittleEndian rest) / 256 = ofLittleEndian rest := by omega
    rw [ofLittleEndian, List.length_cons, littleEndian, low, high, ih]

end Hopline

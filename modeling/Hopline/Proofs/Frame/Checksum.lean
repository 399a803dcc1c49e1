import Hopline.Frame.Checksum
import Hopline.Proofs.Bytes

/-! Signing writes the one trailer that validation accepts behind a body. -/

namespace Hopline

namespace Checksum

theorem body_append (body : Bytes) {trailer : Bytes} (sized : trailer.length = size) :
    Checksum.body (body ++ trailer) = body := by
  rw [Checksum.body, List.length_append, sized, Nat.add_sub_cancel, List.take_left]

theorem trailer_append (body : Bytes) {trailer : Bytes} (sized : trailer.length = size) :
    Checksum.trailer (body ++ trailer) = trailer := by
  rw [Checksum.trailer, List.length_append, sized, Nat.add_sub_cancel, List.drop_left]

theorem long_append (body : Bytes) {trailer : Bytes} (sized : trailer.length = size) :
    ¬(body ++ trailer).length < size := by
  rw [List.length_append]
  omega

theorem sign_append (body : Bytes) {trailer : Bytes} (sized : trailer.length = size) :
    signer.run (body ++ trailer) = (body ++ trailerFor body, true) := by
  simp only [signer, long_append body sized, ↓reduceIte, body_append body sized]

/-- One trailer, and only one, is accepted behind a body. -/
theorem validator_append (body : Bytes) {trailer : Bytes} (sized : trailer.length = size) :
    validator (body ++ trailer) = true ↔ trailer = trailerFor body := by
  have small : ofLittleEndian trailer < 256 ^ size := sized ▸ ofLittleEndian_lt trailer
  have reads : littleEndian size (UInt16.ofNat (ofLittleEndian trailer)).toNat = trailer := by
    rw [UInt16.toNat_ofNat', show 2 ^ 16 = 256 ^ size from rfl, Nat.mod_eq_of_lt small]
    conv => lhs; rw [← sized]
    exact littleEndian_ofLittleEndian trailer
  simp only [validator, long_append body sized, body_append body sized, trailer_append body sized, trailerFor,
    decide_false, Bool.not_false, Bool.true_and, beq_iff_eq]
  constructor
  · intro same
    rw [same, reads]
  · intro same
    rw [same, ofLittleEndian_littleEndian, Nat.mod_eq_of_lt (show _ < 256 ^ size from (checksum body).toNat_lt),
      UInt16.ofNat_toNat]

end Checksum

end Hopline

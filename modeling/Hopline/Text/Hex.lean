import Hopline.Bytes
import Hopline.Text.JsonText

/-! Bytes as text: what a text is in UTF-8, bytes as pairs of hexadecimal digits, and
words with their marker. -/

namespace Hopline.Text

def utf8Bytes (text : String) : Bytes := text.toList.flatMap String.utf8EncodeChar

/-- The text that the bytes spell in UTF-8, if they spell one. -/
def ofUtf8? (bytes : Bytes) : Option String := String.fromUTF8? ⟨bytes.toArray⟩

def hexBytes (bytes : Bytes) : String :=
  String.ofList (bytes.flatMap fun byte => paddedHex 2 byte.toNat)

def hexWord (word : UInt16) : String := "0x" ++ String.ofList (paddedHex 4 word.toNat)

def digitValue (base : Nat) (byte : UInt8) : Option Nat :=
  let point := byte.toNat
  let value :=
    if 0x30 ≤ point ∧ point ≤ 0x39 then some (point - 0x30)
    else if 0x61 ≤ point ∧ point ≤ 0x66 then some (point - 0x61 + 10)
    else if 0x41 ≤ point ∧ point ≤ 0x46 then some (point - 0x41 + 10)
    else none
  value.filter (· < base)

end Hopline.Text

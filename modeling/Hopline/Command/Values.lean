import Hopline.Command.Exit
import Hopline.Frame.Basic
import Hopline.Text.Blank
import Hopline.Text.Number
import Hopline.Text.Quoted

/-! The values that users write: addresses and hexadecimal byte strings; and payloads
as users see them. -/

namespace Hopline.Command

open Text

def dropMarker? (marker text : List Char) : Option (List Char) :=
  if marker.isPrefixOf text then some (text.drop marker.length) else none

def readAddress (text : String) : Except String Address :=
  let trimmed := trim text.toList
  let marked := (dropMarker? ['0', 'x'] trimmed).or (dropMarker? ['0', 'X'] trimmed)
  let number := match marked with
    | some digits => readNumber 16 0xFFFF (utf8Bytes (String.ofList digits))
    | none => readNumber 10 0xFFFF (utf8Bytes (String.ofList trimmed))
  match number with
  | .ok value => .ok (UInt16.ofNat value)
  | .error error =>
    .error ("invalid address " ++ quoted (String.ofList trimmed) ++ ": " ++ error.message)

def readPair (pair : Bytes) : Except CommandError UInt8 :=
  match readNumber 16 0xFF pair with
  | .ok value => .ok (UInt8.ofNat value)
  | .error _ => .error ⟨.usage, "invalid hex byte " ++ quoted ((ofUtf8? pair).getD "")⟩

/-- Reads pairs of digits; the first bad pair decides the error. -/
def readPairs : Bytes → Except CommandError Bytes
  | high :: low :: rest => do
    let byte ← readPair [high, low]
    let bytes ← readPairs rest
    return byte :: bytes
  | _ => .ok []

/-- The digits of a hexadecimal text: without blanks and without its marker. -/
def hexDigits (text : String) : Bytes :=
  let trimmed := trim text.toList
  let digits := (dropMarker? ['0', 'x'] trimmed).getD trimmed
  (utf8Bytes (String.ofList digits)).filter fun byte => !isBlankByte byte

def readHex (text : String) : Except CommandError Bytes :=
  let digits := hexDigits text
  if digits.length % 2 ≠ 0 then .error ⟨.usage, "hex input has an odd number of digits"⟩
  else readPairs digits

/-- A payload as a text, or as a note of its size where it spells none. -/
def payloadPreview (payload : Bytes) : String :=
  match ofUtf8? payload with
  | some text => text
  | none => s!"<binary {payload.length} bytes>"

end Hopline.Command

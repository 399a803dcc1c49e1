import Hopline.Text.Hex

/-! Reading numbers. A number may have a leading plus sign and any count of leading
zeros; the first byte that cannot be read or that leads past the bound decides the
error. -/

namespace Hopline.Text

inductive NumberError
  | empty
  | invalidDigit
  | tooLarge
deriving DecidableEq, Inhabited

def NumberError.message : NumberError → String
  | .empty => "cannot parse integer from empty string"
  | .invalidDigit => "invalid digit found in string"
  | .tooLarge => "number too large to fit in target type"

def readDigits (base bound : Nat) (value : Nat) : Bytes → Except NumberError Nat
  | [] => .ok value
  | byte :: rest =>
    match digitValue base byte with
    | none => .error .invalidDigit
    | some digit =>
      let next := value * base + digit
      if bound < next then .error .tooLarge else readDigits base bound next rest

def readNumber (base bound : Nat) (text : Bytes) : Except NumberError Nat :=
  match text with
  | [] => .error .empty
  | 0x2B :: [] => .error .invalidDigit
  | 0x2B :: digits => readDigits base bound 0 digits
  | digits => readDigits base bound 0 digits

/-- Reads a decimal number that may have a sign of either kind. -/
def readSigned (bound : Nat) (text : Bytes) : Except NumberError Int :=
  match text with
  | 0x2D :: [] => .error .invalidDigit
  | 0x2D :: digits => (readDigits 10 (bound + 1) 0 digits).map fun value => -(value : Int)
  | text => (readNumber 10 bound text).map fun value => (value : Int)

end Hopline.Text

import Hopline.Command.Arguments
import Hopline.Command.Values
import Hopline.Receive.Window

/-! The kinds of values that options take, and how a value is read back out of a
command line that has been checked. -/

namespace Hopline.Command

open Text

abbrev ValueReader (α : Type) := String → Except ArgumentFault α

def anyText : ValueReader String := .ok

def pathText : ValueReader String := fun text =>
  if text.isEmpty then .error .invalidValue else .ok text

def oneOf {α : Type} (words : List (String × α)) : ValueReader α := fun text =>
  match words.lookup text with
  | some value => .ok value
  | none => .error .invalidValue

def addressText : ValueReader Address := fun text =>
  (readAddress text).mapError fun _ => .refusedValue

/-- The largest number that is read before its bounds are looked at. -/
def maxSigned : Nat := 0x7FFFFFFFFFFFFFFF

def numberFrom (least most : Nat) : ValueReader Nat := fun text =>
  match readSigned maxSigned (utf8Bytes text) with
  | .error _ => .error .refusedValue
  | .ok value =>
    if (least : Int) ≤ value ∧ value ≤ (most : Int) then .ok value.toNat
    else .error .refusedValue

def ttlText : ValueReader UInt8 := fun text => (numberFrom 1 255 text).map UInt8.ofNat

def syncText : ValueReader SyncPolicy := oneOf [("head", .headOnly), ("tail", .tailScan)]

def valued {α : Type} (name : String) (reader : ValueReader α) : OptionSpec :=
  { name
    letter := none
    kind := .value fun text =>
      match reader text with
      | .ok _ => none
      | .error fault => some fault }

def switch (name : String) : OptionSpec := { name, letter := none, kind := .switch }

def helpOption : OptionSpec := { name := "help", letter := some 'h', kind := .stop .helpWanted }

def versionOption : OptionSpec :=
  { name := "version", letter := some 'V', kind := .stop .versionWanted }

namespace Reading

def get? {α : Type} (reading : Reading) (name : String) (reader : ValueReader α) : Option α := do
  let text ← reading.value? name
  (reader text).toOption

def getD {α : Type} (reading : Reading) (name : String) (reader : ValueReader α)
    (usual : α) : α :=
  (reading.get? name reader).getD usual

def has (reading : Reading) (name : String) : Bool := (reading.value? name).isSome

end Reading

end Hopline.Command

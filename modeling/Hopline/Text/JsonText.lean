import Hopline.Text.Quoted
import Hopline.Text.Record

/-! Compact JSON. Fields keep the order in which they are given, nothing stands
between tokens, and only quotes, backslashes and control characters are escaped. -/

namespace Hopline.Text

inductive JsonValue
  | number (value : Nat)
  | truth (value : Bool)
  | text (value : String)
  | array (items : List JsonValue)
  | object (fields : List (String × JsonValue))
deriving Inhabited

/-- A number in exactly `count` hexadecimal digits. -/
def paddedHex (count value : Nat) : List Char :=
  let digits := hexNumber value
  List.replicate (count - digits.length) '0' ++ digits

def jsonChar (char : Char) : List Char :=
  if char = '"' then ['\\', '"']
  else if char = '\\' then ['\\', '\\']
  else if char = '\n' then ['\\', 'n']
  else if char = '\r' then ['\\', 'r']
  else if char = '\t' then ['\\', 't']
  else if char.toNat = 0x08 then ['\\', 'b']
  else if char.toNat = 0x0C then ['\\', 'f']
  else if char.toNat < 0x20 then ['\\', 'u'] ++ paddedHex 4 char.toNat
  else [char]

def jsonString (text : String) : String :=
  String.ofList ('"' :: (text.toList.flatMap jsonChar ++ ['"']))

mutual

def JsonValue.render : JsonValue → String
  | .number value => toString value
  | .truth value => Text.truth value
  | .text value => jsonString value
  | .array items => "[" ++ String.intercalate "," (renderItems items) ++ "]"
  | .object fields => "\x7b" ++ String.intercalate "," (renderFields fields) ++ "\x7d"

def JsonValue.renderItems : List JsonValue → List String
  | [] => []
  | item :: rest => item.render :: renderItems rest

def JsonValue.renderFields : List (String × JsonValue) → List String
  | [] => []
  | (name, value) :: rest => (jsonString name ++ ":" ++ value.render) :: renderFields rest

end

end Hopline.Text

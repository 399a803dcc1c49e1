import Hopline.Text.Invisible

/-! Texts in quotes, as records and messages show them. Whatever would not be seen
as itself is escaped: quotes, backslashes, line ends, and every character that is
invisible or would melt into the one before it. -/

namespace Hopline.Text

def hexNumber (value : Nat) : List Char := Nat.toDigits 16 value

def quotedChar (char : Char) : List Char :=
  if char = '"' then ['\\', '"']
  else if char = '\\' then ['\\', '\\']
  else if char = '\n' then ['\\', 'n']
  else if char = '\r' then ['\\', 'r']
  else if char = '\t' then ['\\', 't']
  else if char.toNat = 0 then ['\\', '0']
  else if isInvisible char || isExtending char then
    ['\\', 'u', '\x7b'] ++ hexNumber char.toNat ++ ['\x7d']
  else [char]

def quoted (text : String) : String :=
  String.ofList ('"' :: (text.toList.flatMap quotedChar ++ ['"']))

end Hopline.Text

import Hopline.Text.Emoji
import Hopline.Text.Ligature

/-! The columns that a line takes on a grid of fixed-width cells. A line is read from its
end, since a character's columns depend on what follows it: a selector, a ligature, or
the rest of an emoji that several characters make up. -/

namespace Hopline.Text

/-- What a line opens with, as far as it bears on the character in front of it. -/
inductive Opening
  | plain
  | skinTone
  | flagLetter
  | flagLetters
  | emoji
  | joinedEmoji
  | joinedKeycap
  /-- Flag letters in front of a joiner and an emoji: the first, an even number, or an odd
  number above one. -/
  | joinedFlagLetter
  | joinedFlagPairs
  | joinedFlagPairsOdd
  /-- The tags that name a region, in front of a joiner and an emoji: so many letters, then
  so many digits in front of those. -/
  | tags (letters digits : Nat)
  | kiratE
  | kiratAi
  | alef
  | ligature (part : Ligature) (joined : Bool)
deriving DecidableEq, Repr

inductive Selector
  | sign
  | picture
  | wideQuote
deriving DecidableEq, Repr

/-- The part of a line that has been read, seen from the character in front of it. -/
structure Ahead where
  opening : Opening
  selector : Option Selector := none
deriving DecidableEq, Repr

def Selector.of? (char : Char) : Option Selector :=
  if char.toNat == 0xFE0E then some .sign
  else if char.toNat == 0xFE0F then some .picture
  else if char.toNat == 0xFE01 then some .wideQuote
  else none

def isQuote (char : Char) : Bool := inRanges [(0x2018, 0x2019), (0x201C, 0x201D)] char.toNat

def isJoiner (char : Char) : Bool := char.toNat == 0x200D

namespace Opening

def ofChar (char : Char) : Opening :=
  if isSkinTone char then skinTone
  else if isFlagLetter char then flagLetter
  else if isEmoji char then emoji
  else if isAlef char then alef
  else if char.toNat == 0x16D67 then kiratE
  else if char.toNat == 0x16D68 then kiratAi
  else match Ligature.endingWith? char with
    | some part => ligature part false
    | none => plain

def afterSelector (selector : Selector) : Opening → Opening
  | alef => alef
  | ligature part joined => ligature part joined
  | joinedEmoji => if selector = .picture then joinedEmoji else plain
  | joinedKeycap => if selector = .picture then joinedKeycap else plain
  | _ => plain

def afterVain : Opening → Opening
  | joinedEmoji | joinedKeycap => plain
  | opening => opening

/-- The columns of a character that makes one with the tags behind it, and what the two
open with. A region is two letters or three digits, and up to four letters follow. -/
def extendTags? (letters digits : Nat) (char : Char) : Option (Int × Opening) :=
  let point := char.toNat
  if inRanges [(0xE0061, 0xE007A)] point then
    if digits = 0 ∧ letters < 6 then some (0, tags (letters + 1) 0) else none
  else if inRanges [(0xE0030, 0xE0039)] point then
    if (digits = 0 ∧ letters ≤ 4) ∨ (0 < digits ∧ digits < 3) then
      some (0, tags letters (digits + 1))
    else none
  else if point == 0x1F3F4 then
    if (digits = 0 ∧ 3 ≤ letters) ∨ digits = 3 then some (0, emoji) else none
  else none

def extendJoined? (char : Char) : Option (Int × Opening) :=
  if char.toNat == 0x20E3 then some (0, joinedKeycap)
  else if isFlagLetter char then some (1, joinedFlagLetter)
  else if isSkinTone char then some (0, skinTone)
  else if char.toNat == 0xE007F then some (0, tags 0 0)
  else if isEmoji char then some (0, emoji)
  else none

def extendKiratE? (char : Char) : Option (Int × Opening) :=
  if char.toNat == 0x16D63 || char.toNat == 0x16D69 then some (0, plain)
  else if char.toNat == 0x16D67 then some (0, kiratAi)
  else if char.toNat == 0x16D68 then some (1, kiratE)
  else none

def extendLigature? (part : Ligature) (joined : Bool) (char : Char) : Option (Int × Opening) :=
  if isJoiner char then some (0, ligature part true)
  else if isLigatureMark char then some (0, ligature part joined)
  else (part.extend? joined char).map fun (columns, grown) =>
    (columns, grown.elim plain fun part => ligature part false)

/-- The columns of a character that makes one with what is behind it, and what the two
open with. Flag letters go in pairs of two columns, so that in front of a joiner an odd
letter takes back or adds what its pair has too much or too little. -/
def extend? (opening : Opening) (char : Char) : Option (Int × Opening) :=
  match opening with
  | plain => none
  | skinTone =>
    if isModifiable char then some (0, emoji)
    else if isJoiner char then some (0, joinedEmoji)
    else none
  | flagLetter => if isFlagLetter char then some (1, flagLetters) else none
  | flagLetters =>
    if isFlagLetter char then some (1, flagLetters)
    else if isJoiner char then some (0, joinedEmoji)
    else none
  | emoji => if isJoiner char then some (0, joinedEmoji) else none
  | joinedEmoji => extendJoined? char
  | joinedKeycap => none
  | joinedFlagLetter => if isFlagLetter char then some (-1, joinedFlagPairs) else none
  | joinedFlagPairs =>
    if isFlagLetter char then some (3, joinedFlagPairsOdd)
    else if isJoiner char then some (0, joinedEmoji)
    else none
  | joinedFlagPairsOdd =>
    if isFlagLetter char then some (-1, joinedFlagPairs)
    else if isJoiner char then some (0, joinedEmoji)
    else none
  | tags letters digits => extendTags? letters digits char
  | kiratE => extendKiratE? char
  | kiratAi => if char.toNat == 0x16D63 then some (0, plain) else none
  | alef =>
    if isLam char then some (0, plain)
    else if isArabicMark char then some (0, alef)
    else none
  | ligature part joined => extendLigature? part joined char

end Opening

namespace Ahead

def lineEnd : Ahead := ⟨.plain, none⟩

/-- The columns of the character that a selector gives a form, if it has that form. A
picture in front of a joiner and an emoji is part of their picture. -/
def selected? (ahead : Ahead) (char : Char) : Option (Int × Opening) :=
  match ahead.selector with
  | none => none
  | some .picture =>
    if takesPicture char then
      match ahead.opening with
      | .joinedEmoji | .joinedKeycap => some (0, .emoji)
      | _ => some (2, .emoji)
    else none
  | some .sign => if takesSign char then some (1, .plain) else none
  | some .wideQuote => if isQuote char then some (2, .plain) else none

def unselected (ahead : Ahead) : Opening :=
  if ahead.selector.isSome then ahead.opening.afterVain else ahead.opening

def step (ahead : Ahead) (char : Char) : Int × Ahead :=
  match ahead.selected? char with
  | some (columns, opening) => (columns, ⟨opening, none⟩)
  | none =>
    if char.toNat ≤ 0xA0 then (1, lineEnd)
    else match Selector.of? char with
      | some selector => (0, ⟨ahead.unselected.afterSelector selector, some selector⟩)
      | none =>
        let (columns, opening) :=
          (ahead.unselected.extend? char).getD (charWidth char, Opening.ofChar char)
        (columns, ⟨opening, none⟩)

end Ahead

def width (line : String) : Nat :=
  let (columns, _) := line.toList.foldr (fun char (columns, ahead) =>
    let (more, ahead) := ahead.step char
    (columns + more, ahead)) ((0 : Int), Ahead.lineEnd)
  columns.toNat

end Hopline.Text

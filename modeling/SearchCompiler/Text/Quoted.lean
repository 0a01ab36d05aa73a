import SearchCompiler.Text.Extending
import SearchCompiler.Text.Printable

/-!
# Texts shown in quotes

A text is shown between double quotes with nothing hidden: what would end the quotes, and every
character that does not stand for itself, is written by name or by its number.
-/

namespace SearchCompiler.Text

/-- The lower-case hexadecimal digits of a number, without leading zeros. -/
def hexDigits (n : Nat) : List Char :=
  Nat.toDigits 16 n

/-- Whether a character is a voicing mark of halfwidth Katakana, which takes a place of its own
although it extends the character before it. -/
def isVoicingMark (c : Char) : Bool :=
  c = '\uff9e' || c = '\uff9f'

def isShownByNumber (c : Char) : Bool :=
  (isExtending c && !isVoicingMark c) || !isPrintable c

/-- A character as it is shown inside the quotes. -/
def shownChar (c : Char) : List Char :=
  if c = '\x00' then ['\\', '0']
  else if c = '\t' then ['\\', 't']
  else if c = '\r' then ['\\', 'r']
  else if c = '\n' then ['\\', 'n']
  else if c = '"' ∨ c = '\\' then ['\\', c]
  else if isShownByNumber c then
    ['\\', 'u', '\x7b'] ++ hexDigits c.toNat ++ ['\x7d']
  else [c]

/-- A text between double quotes, with nothing hidden. -/
def shown (s : String) : String :=
  String.ofList ('"' :: (s.toList.flatMap shownChar ++ ['"']))

end SearchCompiler.Text

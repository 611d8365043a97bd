/-
  Protograph.Text.Quoted — a text in double quotes, as messages show it. A quote and a
  backslash get a backslash, line feed, carriage return, tab and NUL have letters of
  their own, and every other character that would not be seen is written as its
  hexadecimal code point in braces.
-/

import Protograph.Text.Hidden

namespace Protograph.Text

def hexDigits (n : Nat) : List Char := Nat.toDigits 16 n

/-- Whether a quoted text shows the character's code point instead of the character. -/
def isHidden (c : Char) : Bool :=
  if c.toNat < 0x80 then c.toNat < 0x20 || c.toNat == 0x7F
  else Hidden.wide.any fun r => r.1 ≤ c.toNat && c.toNat ≤ r.2

def quotedChar (c : Char) : List Char :=
  if c = '"' then ['\\', '"']
  else if c = '\\' then ['\\', '\\']
  else if c = '\n' then ['\\', 'n']
  else if c = '\r' then ['\\', 'r']
  else if c = '\t' then ['\\', 't']
  else if c.toNat = 0 then ['\\', '0']
  else if isHidden c then ['\\', 'u', Char.ofNat 0x7B] ++ hexDigits c.toNat ++ [Char.ofNat 0x7D]
  else [c]

def quoted (s : String) : String := String.ofList ('"' :: s.toList.flatMap quotedChar ++ ['"'])

end Protograph.Text

import Ambient.Text.Hexadecimal
import Ambient.Text.Printable

/-!
# Quoted text in messages

A text that a message quotes stands between double quotes.  The quote, the
backslash and the control characters with a short name are written with a
backslash; every other character that does not print as itself is written as
its code point in hexadecimal, and so is one that would attach to the character
before it.
-/

namespace Ambient.Text

def quotedChar (c : Char) : List Char :=
  if c = '\x00' then ['\\', '0']
  else if c = '\t' then ['\\', 't']
  else if c = '\r' then ['\\', 'r']
  else if c = '\n' then ['\\', 'n']
  else if c = '\\' then ['\\', '\\']
  else if c = '"' then ['\\', '"']
  else if extendsGrapheme c || !isPrintable c then
    ['\\', 'u', '\x7b'] ++ hexDigits c.toNat ++ ['\x7d']
  else [c]

def quoted (cs : List Char) : List Char :=
  ['"'] ++ cs.flatMap quotedChar ++ ['"']

end Ambient.Text

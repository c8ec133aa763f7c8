import Ambient.Text.Quoted

/-!
# The indented layout of JSON

Each item of a list and each member of an object stands on a line of its own,
two spaces deeper than the bracket; an empty list or object is just its
brackets.  In texts only the quote, the backslash and the characters below the
space are escaped.
-/

namespace Ambient.Json

/-- The written form of one character of a text. -/
def escapedChar (c : Char) : List Char :=
  if c = '"' then ['\\', '"']
  else if c = '\\' then ['\\', '\\']
  else if c = '\x08' then ['\\', 'b']
  else if c = '\x0c' then ['\\', 'f']
  else if c = '\n' then ['\\', 'n']
  else if c = '\r' then ['\\', 'r']
  else if c = '\t' then ['\\', 't']
  else if c.toNat < 0x20 then
    ['\\', 'u', '0', '0', Nat.digitChar (c.toNat / 16), Nat.digitChar (c.toNat % 16)]
  else [c]

def layoutText (s : String) : List Char :=
  ['"'] ++ s.toList.flatMap escapedChar ++ ['"']

/-- The start of a line at a depth. -/
def indentation (depth : Nat) : List Char :=
  List.replicate (2 * depth) ' '

/-- Items between brackets at a depth; each item is laid out one deeper. -/
def layoutItems (opener closer : Char) (depth : Nat) (items : List (List Char)) : List Char :=
  if items.isEmpty then [opener, closer]
  else
    [opener, '\n'] ++ [',', '\n'].intercalate (items.map (indentation (depth + 1) ++ ·)) ++
      ['\n'] ++ indentation depth ++ [closer]

/-- A list of items at a depth. -/
def layoutList (depth : Nat) (items : List (List Char)) : List Char :=
  layoutItems '[' ']' depth items

/-- An object of keys and laid out values at a depth. -/
def layoutObject (depth : Nat) (members : List (String × List Char)) : List Char :=
  layoutItems '{' '}' depth (members.map fun m => layoutText m.1 ++ [':', ' '] ++ m.2)

end Ambient.Json

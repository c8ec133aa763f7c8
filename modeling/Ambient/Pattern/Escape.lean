import Ambient.Pattern.Mode
import Ambient.Text.Hexadecimal

/-!
# Escapes in a pattern

A backslash makes the next character an atom of its own: a character that
stands for itself, a control character, a character given by its number, a
place such as a word boundary, or a kind of characters.  Digits and letters
without a meaning are refused.
-/

namespace Ambient.Pattern

open Text

inductive Atom where
  /-- A character; `isByte` tells that it is given by a number of two digits. -/
  | character (c : Char) (isByte : Bool)
  /-- A place; `ofWords` tells that word characters decide about it. -/
  | place (ofWords : Bool)
  /-- The digits, blanks or word characters, or all others. -/
  | kind (isNegated : Bool)
  /-- The characters of a general category. -/
  | category

/-- Whether an atom may stand in a pattern.  Without Unicode it must not match
a part of a character; with it the places between words cannot be found, as
the search goes byte by byte. -/
def Atom.isAllowed (m : Mode) : Atom → Bool
  | .character c isByte => m.isUnicode || !isByte || decide (c.toNat < 128)
  | .place ofWords => !(ofWords && m.isUnicode)
  | .kind isNegated => m.isUnicode || !isNegated
  | .category => m.isUnicode

/-- Whether an atom may stand between brackets. -/
def Atom.isMember (m : Mode) : Atom → Bool
  | .character c _ => m.isUnicode || decide (c.toNat < 128)
  | .place _ => false
  | .kind isNegated => m.isUnicode || !isNegated
  | .category => m.isUnicode

def readNumber (m : Mode) : Nat → Nat → List Char → Option (Nat × List Char)
  | 0, n, s => some (n, s)
  | _ + 1, _, [] => none
  | count + 1, n, c :: rest =>
      match hexDigit? c with
      | none => none
      | some d => readNumber m count (n * 16 + d) (m.skip rest)

/-- Read the number of a character, which has `count` digits. -/
def readCharacter (m : Mode) (count : Nat) (isByte : Bool) (s : List Char) :
    Option (Atom × List Char) :=
  match readNumber m count 0 s with
  | none => none
  | some (n, rest) =>
      if n.isValidChar then some (.character (Char.ofNat n) isByte, rest) else none

def readCategory (m : Mode) : List Char → Option (Atom × List Char)
  | [] => none
  | c :: rest =>
      if ['c', 'l', 'm', 'n', 'p', 's', 'z'].contains c.toLower then some (.category, m.skip rest)
      else none

def control? (c : Char) : Option Char :=
  match c with
  | 'a' => some '\x07'
  | 'f' => some '\x0c'
  | 't' => some '\t'
  | 'n' => some '\n'
  | 'r' => some '\r'
  | 'v' => some '\x0b'
  | _ => none

def readEscape (m : Mode) : List Char → Option (Atom × List Char)
  | [] => none
  | c :: rest =>
      if c = 'x' then readCharacter m 2 true (m.skip rest)
      else if c = 'u' then readCharacter m 4 false (m.skip rest)
      else if c = 'U' then readCharacter m 8 false (m.skip rest)
      else if c = 'p' ∨ c = 'P' then readCategory m (m.skip rest)
      else if ['d', 's', 'w'].contains c then some (.kind false, rest)
      else if ['D', 'S', 'W'].contains c then some (.kind true, rest)
      else if ['b', 'B', '<', '>'].contains c then some (.place true, rest)
      else if ['A', 'z'].contains c then some (.place false, rest)
      else match control? c with
        | some d => some (.character d false, rest)
        | none =>
            if c.toNat < 128 ∧ !c.isAlphanum then some (.character c false, rest) else none

end Ambient.Pattern

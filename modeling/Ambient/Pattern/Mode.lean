import Ambient.Text.Blank

/-!
# Modes of a pattern

Flags switch the reading of a pattern, from where they stand to the end of
their group.  Two of them decide whether a pattern is well formed: `x`, under
which white space and comments between the parts of the pattern are passed
over, and `u`, without which a pattern is about bytes and must not ask for
anything beyond ASCII.
-/

namespace Ambient.Pattern

open Text

/-- How a part of a pattern is read. -/
structure Mode where
  isSpaced : Bool := false
  isUnicode : Bool := true

/-! ## Passing over white space -/

/-- The text after white space and comments, which go from `#` to the end of
the line; `inComment` says whether the text starts inside of one. -/
def skipSpaced (inComment : Bool) : List Char → List Char
  | [] => []
  | c :: rest =>
      if inComment then skipSpaced (c != '\n') rest
      else if isBlank c then skipSpaced false rest
      else if c = '#' then skipSpaced true rest
      else c :: rest

/-- The text after what the mode passes over. -/
def Mode.skip (m : Mode) (s : List Char) : List Char :=
  if m.isSpaced then skipSpaced false s else s

/-- The first character that is no white space, where the character after a
comment sign is the first one of the comment. -/
def peekSpaced (inComment : Bool) : List Char → Option Char
  | [] => none
  | c :: rest =>
      if isBlank c then peekSpaced inComment rest
      else if c = '#' ∧ !inComment then peekSpaced true rest
      else some c

/-- The character that decides whether a minus stands between two ends of a range. -/
def Mode.peek (m : Mode) (s : List Char) : Option Char :=
  if m.isSpaced then peekSpaced false s else s.head?

/-! ## Flags -/

def isFlag (c : Char) : Bool :=
  ['i', 'm', 's', 'U', 'u', 'R', 'x'].contains c

/-- Read flags up to the `:` or `)` after them, which comes second.  No flag
stands twice; one minus may stand among them, but not at the end.  The signs
that are read already stand in `seen`, the last one first. -/
def readFlags (seen : List Char) : List Char → Option (List Char × Char × List Char)
  | [] => none
  | c :: rest =>
      if c = ':' ∨ c = ')' then
        if seen.head? = some '-' then none else some (seen.reverse, c, rest)
      else if (c = '-' ∨ isFlag c) ∧ !seen.contains c then readFlags (c :: seen) rest
      else none

/-- What flags say about one of them: it is switched off behind the minus. -/
def switch? (flag : Char) (flags : List Char) : Option Bool :=
  if flags.contains flag then some (!(flags.takeWhile (· != flag)).contains '-') else none

def Mode.switched (m : Mode) (flags : List Char) : Mode where
  isSpaced := (switch? 'x' flags).getD m.isSpaced
  isUnicode := (switch? 'u' flags).getD m.isUnicode

end Ambient.Pattern

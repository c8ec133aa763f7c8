/-!
# Lines

A text is split at its line feeds and joined with them.  Splitting counts the
piece after the last line feed, so a text always has at least one line, and
joining the lines gives the text back.
-/

namespace Ambient.Text

/-- The pieces of a text between its line feeds. -/
def splitLines (cs : List Char) : List (List Char) :=
  cs.splitOn '\n'

/-- The text that has the given lines. -/
def joinLines (lines : List (List Char)) : List Char :=
  ['\n'].intercalate lines

/-- Splitting loses nothing. -/
theorem joinLines_splitLines (cs : List Char) : joinLines (splitLines cs) = cs :=
  List.intercalate_splitOn '\n'

end Ambient.Text

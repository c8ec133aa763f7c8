import Ambient.Description
import Ambient.Text.Blank
import Ambient.Text.Lines

/-!
# Documentation blocks

A block opens with `/**`, closes with ` */`, and has ` * ` in front of every
line between.

The text of a declaration is tidied first: where at least three line breaks
follow each other with nothing but spaces between them, one empty line remains,
and white space at the end is dropped.  In terms of lines, a line is blank if
it holds only spaces; two or more blank lines after a text line become one
empty line, and three or more before the first text line become two.

The text of a method is kept as it is; the text of a parameter is brought onto
one line.
-/

namespace Ambient

open Text

/-! ## Tidying -/

def isBlankLine (line : List Char) : Bool :=
  line.all (· == ' ')

/-- The line without the spaces at its end. -/
def trimSpaces (line : List Char) : List Char :=
  (line.reverse.dropWhile (· == ' ')).reverse

/-- A text line with the blank lines that follow it. -/
structure Paragraph where
  line : List Char
  blanks : List (List Char)

/-- The blank lines at the start and the text lines with the blank lines after each. -/
def paragraphs (lines : List (List Char)) : List (List Char) × List Paragraph :=
  lines.foldr
    (fun line (blanks, later) =>
      if isBlankLine line then (line :: blanks, later) else ([], ⟨line, blanks⟩ :: later))
    ([], [])

/-- The lines of a paragraph with a long run of blank lines made short. -/
def Paragraph.tidy (p : Paragraph) : List (List Char) :=
  if 2 ≤ p.blanks.length then [trimSpaces p.line, []] else p.line :: p.blanks

/-- The lines with every long run of blank lines made short. -/
def collapseBlanks (lines : List (List Char)) : List (List Char) :=
  let (blanks, later) := paragraphs lines
  (if 3 ≤ blanks.length then [[], []] else blanks) ++ later.flatMap Paragraph.tidy

def tidyLines (doc : String) : List (List Char) :=
  splitLines (trimEnd (joinLines (collapseBlanks (splitLines doc.toList))))

/-- The text with every line break, and the white space after it, made one
space; `gap` tells whether such white space is being passed over. -/
def unbroken (gap : Bool) : List Char → List Char
  | [] => []
  | c :: rest =>
      if gap && isBlank c then unbroken true rest
      else if c = '\n' then ' ' :: unbroken true rest
      else c :: unbroken false rest

/-! ## Blocks -/

def block (lines : List String) : List String :=
  ["/**"] ++ lines.map (" * " ++ ·) ++ [" */"]

def docBlock (doc : String) : List String :=
  block ((tidyLines doc).map String.ofList)

def Parameter.docLine (p : Parameter) : String :=
  "@param " ++ p.name ++ " " ++ String.ofList (unbroken false p.doc.toList)

/-- The block of a method: its text, its URL and a line for each parameter. -/
def Method.docBlock (m : Method) : List String :=
  block ((splitLines m.doc.toList).map String.ofList ++ [m.url] ++
    m.parameters.map Parameter.docLine)

end Ambient

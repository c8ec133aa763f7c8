import Ambient.Pattern.Brackets
import Ambient.Text.Word

/-!
# Patterns of texts

A pattern is a regular expression over the characters of a text.  Here it is
only decided whether a text is a pattern; nothing is matched.

A pattern is read from left to right with a frame for every open group, and of
what is read only an outline is kept: the heights of the parts, and whether a
part can be repeated.  Parts may stand inside each other up to a limit.  There
are no counted repetitions, as a pattern is cut off at a closing brace.
-/

namespace Ambient.Pattern

open Text

/-! ## Outlines -/

/-- What is kept of a part: its height, and whether it can be repeated, which
a lone setting of flags cannot. -/
structure Part where
  height : Nat
  isRepeatable : Bool

def greatest (heights : List Nat) : Nat :=
  heights.foldl max 0

/-- The height of parts that follow each other; one alone is no sequence. -/
def sequenceHeight : List Part → Nat
  | [] => 0
  | [part] => part.height
  | parts => greatest (parts.map Part.height) + 1

/-- The parts of a group or of the whole pattern that are read: those after the
last `|`, the last one first, and the heights of the branches before it. -/
structure Outline where
  parts : List Part := []
  branches : List Nat := []

def Outline.add (o : Outline) (height : Nat) : Outline :=
  { o with parts := ⟨height, true⟩ :: o.parts }

/-- The outline after a `|`. -/
def Outline.branch (o : Outline) : Outline where
  parts := []
  branches := sequenceHeight o.parts :: o.branches

/-- The height of all that is read. -/
def Outline.total (o : Outline) : Nat :=
  match o.branches with
  | [] => sequenceHeight o.parts
  | branches => greatest (sequenceHeight o.parts :: branches) + 1

/-- The outline whose last part is repeated, if there is one to repeat. -/
def Outline.repeated (o : Outline) : Option Outline :=
  match o.parts with
  | [] => none
  | part :: parts =>
      if part.isRepeatable then some { o with parts := ⟨part.height + 1, true⟩ :: parts } else none

/-! ## Groups -/

/-- Where the reading of a pattern stands: the mode and outline of the innermost
open group, those of the groups around it, and the names of groups. -/
structure Progress where
  mode : Mode := {}
  outline : Outline := {}
  around : List (Mode × Outline) := []
  names : List (List Char) := []

def Progress.add (p : Progress) (height : Nat) : Progress :=
  { p with outline := p.outline.add height }

def Progress.enter (p : Progress) (mode : Mode) : Progress :=
  { p with mode := mode, outline := {}, around := (p.mode, p.outline) :: p.around }

/-- The progress after the end of the innermost group. -/
def Progress.leave (p : Progress) : Option Progress :=
  match p.around with
  | [] => none
  | (mode, outline) :: around =>
      some { p with mode := mode, outline := outline.add (p.outline.total + 1), around := around }

/-- Whether a text can be the name of a group. -/
def isGroupName : List Char → Bool
  | [] => false
  | c :: rest =>
      (c = '_' || isAlphabetic c) &&
        rest.all fun c => c = '_' || c = '.' || c = '[' || c = ']' || isAlphanumeric c

/-- Read the name of a group up to its `>`; no two groups have one name. -/
def Progress.enterNamed (p : Progress) (s : List Char) : Option (Progress × List Char) :=
  let name := s.takeWhile (· != '>')
  match s.dropWhile (· != '>') with
  | '>' :: rest =>
      if isGroupName name ∧ !p.names.contains name then
        some ({ p.enter p.mode with names := name :: p.names }, rest)
      else none
  | _ => none

/-- Read flags, which stand alone or open a group. -/
def Progress.setFlags (p : Progress) (s : List Char) : Option (Progress × List Char) :=
  match readFlags [] s with
  | none => none
  | some (flags, ends, rest) =>
      if ends = ':' then some (p.enter (p.mode.switched flags), rest)
      else if flags.isEmpty then none
      else
        some ({ p with
          mode := p.mode.switched flags
          outline := { p.outline with parts := ⟨0, false⟩ :: p.outline.parts } }, rest)

/-- Read the start of a group after its parenthesis.  A look at what stands
before or after a place is refused. -/
def Progress.openGroup (p : Progress) (s : List Char) : Option (Progress × List Char) :=
  match p.mode.skip s with
  | '?' :: '=' :: _ => none
  | '?' :: '!' :: _ => none
  | '?' :: '<' :: '=' :: _ => none
  | '?' :: '<' :: '!' :: _ => none
  | '?' :: 'P' :: '<' :: rest => p.enterNamed rest
  | '?' :: '<' :: rest => p.enterNamed rest
  | '?' :: rest => p.setFlags rest
  | rest => some (p.enter p.mode, rest)

/-! ## Patterns -/

/-- Read the part of a pattern that starts with `c`. -/
def Progress.step (p : Progress) (c : Char) (rest : List Char) : Option (Progress × List Char) :=
  match c with
  | '(' => p.openGroup rest
  | ')' => p.leave.map (·, rest)
  | '|' => some ({ p with outline := p.outline.branch }, rest)
  | '[' => (readBrackets p.mode rest).map fun (height, rest) => (p.add height, rest)
  | '{' => none
  | '.' => if p.mode.isUnicode then some (p.add 0, rest) else none
  | '\\' =>
      match readEscape p.mode rest with
      | none => none
      | some (atom, rest) => if atom.isAllowed p.mode then some (p.add 0, rest) else none
  | c =>
      if c = '?' ∨ c = '*' ∨ c = '+' then
        let rest := match rest with
          | '?' :: rest => rest
          | rest => rest
        p.outline.repeated.map fun outline => ({ p with outline := outline }, rest)
      else some (p.add 0, rest)

/-- Read a pattern to its end.  Each step takes at least one character, so a
limit of more than the length of the text is never reached. -/
def Progress.finish : Nat → Progress → List Char → Option Progress
  | 0, _, _ => none
  | limit + 1, p, s =>
      match p.mode.skip s with
      | [] => some p
      | c :: rest =>
          match p.step c rest with
          | none => none
          | some (p, rest) => Progress.finish limit p rest

/-- How deeply the parts of a pattern may stand inside each other. -/
def heightLimit : Nat :=
  250

def isPattern (s : List Char) : Bool :=
  match Progress.finish (s.length + 1) {} s with
  | none => false
  | some p => p.around.isEmpty && decide (p.outline.total ≤ heightLimit)

end Ambient.Pattern

import Ambient.Pattern.Escape

/-!
# Sets of characters in brackets

Between brackets stand characters, ranges of characters, kinds of characters
and further sets; `&&`, `--` and `~~` combine what stands on either side of
them.  A minus right after the opening bracket, and a bracket that would close
an empty set, stand for themselves.

Of a set only its height matters: how deeply sets, their lists of members and
their operators stand inside each other.
-/

namespace Ambient.Pattern

/-! ## Heights -/

/-- The members that are read of an open set: their count and greatest height,
and the height of what stands left of the last operator. -/
structure Members where
  count : Nat := 0
  height : Nat := 0
  left : Option Nat := none

def Members.add (ms : Members) (height : Nat) : Members :=
  { ms with count := ms.count + 1, height := max ms.height height }

/-- The height of all that is read: two or more members count as a list, and
each operator joins two sides. -/
def Members.total (ms : Members) : Nat :=
  let side := if ms.count ≤ 1 then ms.height else ms.height + 1
  match ms.left with
  | none => side
  | some left => max left side + 1

def Members.combined (ms : Members) : Members :=
  { left := some ms.total }

/-! ## Members -/

/-- The names of the kinds that are written `[:name:]`. -/
def kindNames : List String :=
  ["alnum", "alpha", "ascii", "blank", "cntrl", "digit", "graph", "lower", "print", "punct",
   "space", "upper", "word", "xdigit"]

/-- The text after `[:name:]`, behind its first bracket, and whether it is
negated; anything else is read as a set. -/
def kindName? : List Char → Option (Bool × List Char)
  | ':' :: s =>
      let (isNegated, s) := match s with
        | '^' :: rest => (true, rest)
        | s => (false, s)
      match s.dropWhile (· != ':') with
      | ':' :: ']' :: rest =>
          if kindNames.contains (String.ofList (s.takeWhile (· != ':'))) then some (isNegated, rest)
          else none
      | _ => none
  | _ => none

/-- Read one end of a range or a member that is none. -/
def readMember (m : Mode) : List Char → Option (Atom × List Char)
  | [] => none
  | '\\' :: rest => readEscape m rest
  | c :: rest => some (.character c false, rest)

/-- Read a member or a range, whose ends are characters in ascending order. -/
def readRange (m : Mode) (s : List Char) : Option (List Char) :=
  match readMember m s with
  | none => none
  | some (first, rest) =>
      match m.skip rest with
      | [] => none
      | c :: behind =>
          if c ≠ '-' ∨ m.peek behind = some ']' ∨ m.peek behind = some '-' then
            if first.isMember m then some (c :: behind) else none
          else
            match first, readMember m (m.skip behind) with
            | .character a _, some (.character b isByte, rest) =>
                if first.isMember m ∧ (Atom.character b isByte).isMember m ∧ a.toNat ≤ b.toNat then
                  some rest
                else none
            | _, _ => none

/-! ## Sets -/

/-- Read the rest of a set.  `isFresh` tells that nothing but minus signs stands
before; `outer` are the sets around, the nearest one first.  Each step takes at
least one character, so a limit of the length of the text is never reached. -/
def readSet (m : Mode) : Nat → Members → Bool → List Members → List Char → Option (Nat × List Char)
  | 0, _, _, _, _ => none
  | limit + 1, ms, isFresh, outer, s =>
      match m.skip s with
      | [] => none
      | c :: rest =>
          if isFresh ∧ c = '-' then readSet m limit (ms.add 0) true outer rest
          else if isFresh ∧ ms.count = 0 ∧ c = ']' then readSet m limit (ms.add 0) false outer rest
          else if c = ']' then
            match outer with
            | [] => some (ms.total + 1, rest)
            | around :: outer => readSet m limit (around.add (ms.total + 1)) false outer rest
          else if c = '[' then
            match kindName? rest with
            | some (isNegated, rest) =>
                if isNegated ∧ !m.isUnicode then none
                else readSet m limit (ms.add 0) false outer rest
            | none =>
                match m.skip rest with
                | '^' :: rest =>
                    if m.isUnicode then readSet m limit {} true (ms :: outer) rest else none
                | rest => readSet m limit {} true (ms :: outer) rest
          else if (c = '&' ∨ c = '-' ∨ c = '~') ∧ rest.head? = some c then
            readSet m limit ms.combined false outer rest.tail
          else
            match readRange m (c :: rest) with
            | none => none
            | some rest => readSet m limit (ms.add 0) false outer rest

/-- Read a set after its opening bracket; its height comes first. -/
def readBrackets (m : Mode) (s : List Char) : Option (Nat × List Char) :=
  match m.skip s with
  | '^' :: rest => if m.isUnicode then readSet m (rest.length + 1) {} true [] rest else none
  | rest => readSet m (rest.length + 1) {} true [] rest

end Ambient.Pattern

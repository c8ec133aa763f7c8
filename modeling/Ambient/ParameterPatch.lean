import Ambient.Text.Word

/-!
# Parameters that occur twice

A signature in which one parameter name occurs twice is patched in its written
form, where a parameter shows as its name and a colon.  Of the places on one
line where the name with its colon starts at a word boundary, the last one gets
a `_` between name and colon, if there is an earlier one.

The patch works from left to right.  At the first place where the label starts
it looks for the last start of the label behind it on the same line; if there
is one, that one is patched and the search goes on behind it, and otherwise the
search goes on at the next character.
-/

namespace Ambient.ParameterPatch

open Text

/-- What is looked for: a name with its colon. -/
def label (name : List Char) : List Char :=
  name ++ [':']

/-- Whether the label starts here, at a word boundary. -/
def startsAt (label : List Char) (before : Option Char) (s : List Char) : Bool :=
  isWordBoundary before s.head? && label.isPrefixOf s

/-- How far away on this line the label starts for the last time. -/
def lastStart? (label : List Char) (before : Option Char) : List Char → Option Nat
  | [] => if startsAt label before [] then some 0 else none
  | c :: rest =>
      let later := if c = '\n' then none else lastStart? label (some c) rest
      match later with
      | some n => some (n + 1)
      | none => if startsAt label before (c :: rest) then some 0 else none

/-- The number of characters from here to the colon that gets a `_` before it,
if the label starts here and again behind on the same line. -/
def target? (label : List Char) (before : Option Char) (s : List Char) : Option Nat :=
  if startsAt label before s then
    (lastStart? label label.getLast? (s.drop label.length)).map fun n =>
      label.length + n + (label.length - 1)
  else none

/-- Patch a text that stands behind the character `before`; `pending` is the
number of characters to the next colon that gets a `_`, once it is known. -/
def patchFrom (label : List Char) (before : Option Char) : Option Nat → List Char → List Char
  | _, [] => []
  | some 0, c :: rest => '_' :: c :: patchFrom label (some c) none rest
  | some (n + 1), c :: rest => c :: patchFrom label (some c) (some n) rest
  | none, c :: rest =>
      match target? label before (c :: rest) with
      | some (n + 1) => c :: patchFrom label (some c) (some n) rest
      | some 0 => c :: patchFrom label (some c) none rest
      | none => c :: patchFrom label (some c) none rest

/-- Patch the written form of a parameter list for one name. -/
def apply (name parameters : String) : String :=
  String.ofList (patchFrom (label name.toList) none none parameters.toList)

def applyAll (names : List String) (parameters : String) : String :=
  names.foldl (fun written name => apply name written) parameters

/-! ## Size -/

/-- The first number of bytes for which a name is too long to be searched for. -/
def sizeLimit : Nat :=
  163820

/-- Whether a name can be searched for. -/
def fits (name : String) : Bool :=
  decide (name.utf8ByteSize < sizeLimit)

end Ambient.ParameterPatch

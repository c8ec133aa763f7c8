import Ambient.Json.Number
import Ambient.Json.Skip
import Ambient.SortedSet

/-!
# Values of a wanted type

Readers for texts, truth values, lists, sets, maps and optional values.  Each
passes over the blanks in front of its value.  Where another kind of value
stands, a simple one is read to its end and reported with its content, and a
bracket is reported without being entered.

Lists and maps are read with a limit like texts: one step per item, at most one
item per character of the unread text.
-/

namespace Ambient.Json

/-! ## Values of another type -/

/-- The failure for a value that is not of the wanted type. -/
def wrongType (wanted : Wanted) : List Char → Failure
  | [] => .atNext .endInValue []
  | c :: rest =>
      let report : (Except Failure (Found × List Char)) → Failure
        | .error e => e
        | .ok (found, rest) => .here (.wrongType found wanted) rest
      if c = 'n' then report ((word ['u', 'l', 'l'] rest).map fun p => (.null, p.2))
      else if c = 't' then report ((word ['r', 'u', 'e'] rest).map fun p => (.boolean true, p.2))
      else if c = 'f' then
        report ((word ['a', 'l', 's', 'e'] rest).map fun p => (.boolean false, p.2))
      else if c = '"' then report ((textBody rest).map fun p => (.text p.1, p.2))
      else if c = '-' ∨ c.isDigit then
        report ((number (c :: rest)).map fun p =>
          (match p.1 with
            | .integer value => .integer value
            | .float value => .float value, p.2))
      else if c = '[' then .here (.wrongType .sequence wanted) (c :: rest)
      else if c = '{' then .here (.wrongType .map wanted) (c :: rest)
      else .atNext .expectedValue (c :: rest)

/-! ## Simple values -/

def text : Reader String := fun s =>
  match skipBlanks s with
  | '"' :: rest =>
      match textBody rest with
      | .error e => .error e
      | .ok (cs, rest) => .ok (String.ofList cs, rest)
  | s => .error (wrongType .text s)

def boolean : Reader Bool := fun s =>
  match skipBlanks s with
  | 't' :: rest => (word ['r', 'u', 'e'] rest).map fun p => (true, p.2)
  | 'f' :: rest => (word ['a', 'l', 's', 'e'] rest).map fun p => (false, p.2)
  | s => .error (wrongType .boolean s)

def null : Reader Unit := fun s =>
  match skipBlanks s with
  | 'n' :: rest => word ['u', 'l', 'l'] rest
  | s => .error (wrongType .null s)

/-- Read a value or the word `null` in its place. -/
def optional {α : Type} (value : Reader α) : Reader (Option α) := fun s =>
  match skipBlanks s with
  | 'n' :: rest => (word ['u', 'l', 'l'] rest).map fun p => (none, p.2)
  | s => (value s).map fun p => (some p.1, p.2)

/-! ## Lists -/

/-- Go to the next item of a list, or stop before its closing bracket.  A comma
stands before every item but the first. -/
def nextItem (first : Bool) : Reader Bool := fun s =>
  match skipBlanks s with
  | [] => .error (.atNext .endInList [])
  | ']' :: rest => .ok (false, ']' :: rest)
  | c :: rest =>
      if first then .ok (true, c :: rest)
      else if c = ',' then
        match skipBlanks rest with
        | [] => .error (.atNext .endInValue [])
        | ']' :: rest => .error (.atNext .trailingComma (']' :: rest))
        | s => .ok (true, s)
      else .error (.atNext .expectedListComma (c :: rest))

/-- Read the items of a list and its closing bracket; `seen` holds the items so
far, last first. -/
def itemsFrom {α : Type} (item : Reader α) (first : Bool) (seen : List α) :
    List Char → Reader (List α)
  | [], s => .error (.atNext .endInList s)
  | _ :: limit, s =>
      match nextItem first s with
      | .error e => .error e
      | .ok (false, rest) => .ok (seen.reverse, rest.drop 1)
      | .ok (true, rest) =>
          match item rest with
          | .error e => .error e
          | .ok (value, rest) => itemsFrom item false (value :: seen) limit rest

def list {α : Type} (item : Reader α) : Reader (List α) := fun s =>
  match skipBlanks s with
  | '[' :: rest => itemsFrom item true [] rest rest
  | s => .error (wrongType .sequence s)

def textSet : Reader SortedSet := fun s =>
  (list text s).map fun p => (.ofList p.1, p.2)

/-! ## Maps -/

/-- Read the next key of an object, or stop before its closing bracket.  A comma
stands before every key but the first. -/
def nextKey (first : Bool) : Reader (Option String) := fun s =>
  let key : Reader (Option String) := fun s =>
    match textBody s with
    | .error e => .error e
    | .ok (cs, rest) => .ok (some (String.ofList cs), rest)
  match skipBlanks s with
  | [] => .error (.atNext .endInObject [])
  | '}' :: rest => .ok (none, '}' :: rest)
  | c :: rest =>
      if first then
        if c = '"' then key rest else .error (.atNext .keyNotText (c :: rest))
      else if c = ',' then
        match skipBlanks rest with
        | [] => .error (.atNext .endInValue [])
        | '"' :: rest => key rest
        | '}' :: rest => .error (.atNext .trailingComma ('}' :: rest))
        | s => .error (.atNext .keyNotText s)
      else .error (.atNext .expectedObjectComma (c :: rest))

def colon : Reader Unit := fun s =>
  match skipBlanks s with
  | [] => .error (.atNext .endInObject [])
  | ':' :: rest => .ok ((), rest)
  | s => .error (.atNext .expectedColon s)

/-- Read the entries of an object and its closing bracket into a map. -/
def entriesFrom {α : Type} (value : Reader α) (first : Bool) (seen : SortedMap α) :
    List Char → Reader (SortedMap α)
  | [], s => .error (.atNext .endInObject s)
  | _ :: limit, s =>
      match nextKey first s with
      | .error e => .error e
      | .ok (none, rest) => .ok (seen, rest.drop 1)
      | .ok (some key, rest) =>
          match colon rest with
          | .error e => .error e
          | .ok (_, rest) =>
              match value rest with
              | .error e => .error e
              | .ok (v, rest) => entriesFrom value false (seen.insert key v) limit rest

/-- Read an object with arbitrary keys; of several values under one key the
last one counts. -/
def map {α : Type} (value : Reader α) : Reader (SortedMap α) := fun s =>
  match skipBlanks s with
  | '{' :: rest => entriesFrom value true {} rest rest
  | s => .error (wrongType .map s)

/-! ## Whole texts -/

/-- Read a text that holds one value and nothing else. -/
def readAll {α : Type} (value : Reader α) (input : String) : Except Error α :=
  let cs := input.toList
  match value cs with
  | .error f => .error (f.within cs)
  | .ok (result, rest) =>
      match skipBlanks rest with
      | [] => .ok result
      | s => .error (Failure.within cs (.atNext .trailingCharacters s))

end Ambient.Json

import Ambient.Json.Value

/-!
# Records

A record is an object with fixed keys, or an array of the same fields in their
order.  Its fields read as changes to a value that starts with every default,
so a record reader needs no partly filled values: a field that is left out has
changed nothing, and a required one that is left out is an error.

In an object the order is free, a field may stand only once, and a key that
names no field is passed over or refused as the record says.  In an array the
fields at the end may be left out.

An error about the fields as such is placed where reading stands once the end
of the record has been tried: past blanks, and past a closing bracket that
follows at once.
-/

namespace Ambient.Json

/-! ## Fields -/

/-- A field: its key, whether it may not be left out, and how its value changes
the record. -/
structure Field (α : Type) where
  name : String
  isRequired : Bool
  read : Reader (α → α)

/-- A field that is set to what its reader yields. -/
def Field.defaulted {α β : Type} (name : String) (value : Reader β) (set : β → α → α) : Field α where
  name := name
  isRequired := false
  read := fun s => (value s).map fun p => (set p.1, p.2)

/-- A field that may not be left out. -/
def Field.required {α β : Type} (name : String) (value : Reader β) (set : β → α → α) : Field α where
  name := name
  isRequired := true
  read := fun s => (value s).map fun p => (set p.1, p.2)

/-- A kind of record: its name in messages, its fields in order, the value with
every default, and whether unknown keys are passed over. -/
structure RecordType (α : Type) where
  name : String
  fields : List (Field α)
  default : α
  isExtensible : Bool

namespace RecordType

variable {α : Type}

def fieldNames (r : RecordType α) : List String :=
  r.fields.map (·.name)

def field? (r : RecordType α) (key : String) : Option (Field α) :=
  r.fields.find? (·.name == key)

/-- The first required field that is not among the given keys. -/
def missing? (r : RecordType α) (seen : List String) : Option String :=
  (r.fields.find? fun f => f.isRequired && !seen.contains f.name).map (·.name)

/-! ## Objects -/

/-- A failure about the fields of an object, placed where the try to end the
object leaves the reader. -/
def fieldFailure (cause : Cause) (s : List Char) : Failure :=
  match skipBlanks s with
  | '}' :: rest => .here cause rest
  | s => .here cause s

/-- Read the fields of an object and its closing bracket; `seen` holds the keys
of the fields so far. -/
def fieldsFrom (r : RecordType α) (first : Bool) (seen : List String) (value : α) :
    List Char → Reader α
  | [], s => .error (.atNext .endInObject s)
  | _ :: limit, s =>
      match nextKey first s with
      | .error e => .error e
      | .ok (none, rest) =>
          match r.missing? seen with
          | some name => .error (.here (.missingField name) (rest.drop 1))
          | none => .ok (value, rest.drop 1)
      | .ok (some key, rest) =>
          match r.field? key with
          | some f =>
              if seen.contains key then .error (fieldFailure (.duplicateField key) rest)
              else
                match colon rest with
                | .error e => .error e
                | .ok (_, rest) =>
                    match f.read rest with
                    | .error e => .error e
                    | .ok (change, rest) =>
                        fieldsFrom r false (key :: seen) (change value) limit rest
          | none =>
              if r.isExtensible then
                match colon rest with
                | .error e => .error e
                | .ok (_, rest) =>
                    match skipValue rest with
                    | .error e => .error e
                    | .ok (_, rest) => fieldsFrom r false seen value limit rest
              else .error (fieldFailure (.unknownField key r.fieldNames) rest)

/-! ## Arrays -/

/-- Read the closing bracket after the last field of an array. -/
def arrayEnd : Reader Unit := fun s =>
  match skipBlanks s with
  | [] => .error (.atNext .endInList [])
  | ']' :: rest => .ok ((), rest)
  | ',' :: rest =>
      match skipBlanks rest with
      | ']' :: rest => .error (.atNext .trailingComma (']' :: rest))
      | s => .error (.atNext .trailingCharacters s)
  | s => .error (.atNext .trailingCharacters s)

/-- Read the remaining fields of an array, of which `index` came before. -/
def elementsFrom (r : RecordType α) (index : Nat) (value : α) : List (Field α) → Reader α
  | [], s =>
      match arrayEnd s with
      | .error e => .error e
      | .ok (_, rest) => .ok (value, rest)
  | f :: fields, s =>
      match nextItem (index == 0) s with
      | .error e => .error e
      | .ok (true, rest) =>
          match f.read rest with
          | .error e => .error e
          | .ok (change, rest) => elementsFrom r (index + 1) (change value) fields rest
      | .ok (false, rest) =>
          match (f :: fields).findIdx? (·.isRequired) with
          | some i =>
              .error (.here (.wrongLength (index + i) r.name r.fields.length) (rest.drop 1))
          | none => .ok (value, rest.drop 1)

def read (r : RecordType α) : Reader α := fun s =>
  match skipBlanks s with
  | '[' :: rest => elementsFrom r 0 r.default r.fields rest
  | '{' :: rest => fieldsFrom r true [] r.default rest rest
  | s => .error (wrongType (.record r.name) s)

end RecordType

end Ambient.Json

import Ambient.Description
import Ambient.Json.Record
import Ambient.SystemError

/-!
# Reading a description

The record types of the description tree and the reader of a whole document.
Unknown keys are passed over, so a document may hold more than is used.
-/

namespace Ambient

open Json

/-! ## Record types -/

def TypeRef.record : RecordType TypeRef where
  name := "TypeRef"
  fields := [
    .defaulted "name" text fun v r => { r with name := v },
    .defaulted "category" (Json.optional text) fun v r => { r with category := v }]
  default := {}
  isExtensible := true

def Property.record : RecordType Property where
  name := "Property"
  fields := [
    .required "name" text fun v p => { p with name := v },
    .defaulted "type" TypeRef.record.read fun v p => { p with type := v },
    .defaulted "isDeprecated" boolean fun v p => { p with isDeprecated := v }]
  default := {}
  isExtensible := true

def Parameter.record : RecordType Parameter where
  name := "Param"
  fields := [
    .required "name" text fun v p => { p with name := v },
    .defaulted "type" TypeRef.record.read fun v p => { p with type := v },
    .defaulted "doc" text fun v p => { p with doc := v }]
  default := {}
  isExtensible := true

def Method.record : RecordType Method where
  name := "Method"
  fields := [
    .required "name" text fun v m => { m with name := v },
    .defaulted "params" (list Parameter.record.read) fun v m => { m with parameters := v },
    .defaulted "returnType" TypeRef.record.read fun v m => { m with returnType := v },
    .defaulted "docDetailed" text fun v m => { m with doc := v },
    .defaulted "url" text fun v m => { m with url := v },
    .defaulted "isDeprecated" boolean fun v m => { m with isDeprecated := v }]
  default := {}
  isExtensible := true

/-- The kind with a name: everything but an enum is an interface. -/
def DeclarationKind.ofName (name : String) : DeclarationKind :=
  if name = "enum" then .enum else .interface

/-- Read a kind: its name as a text, or an object whose only key is the name
and whose value is `null`. -/
def DeclarationKind.read : Reader DeclarationKind := fun s =>
  match skipBlanks s with
  | [] => .error (.atNext .endInValue [])
  | '"' :: rest =>
      match textBody rest with
      | .error e => .error e
      | .ok (name, rest) => .ok (.ofName (String.ofList name), rest)
  | '{' :: rest =>
      match nextKey true rest with
      | .error e => .error e
      | .ok (none, rest) => .error (.atNext .expectedValue rest)
      | .ok (some name, rest) =>
          match colon rest with
          | .error e => .error e
          | .ok (_, rest) =>
              match Json.null rest with
              | .error e => .error e
              | .ok (_, rest) =>
                  match skipBlanks rest with
                  | '}' :: rest => .ok (.ofName name, rest)
                  | [] => .error (.here .endInObject [])
                  | s => .error (.here .expectedValue s)
  | s => .error (.atNext .expectedValue s)

def Declaration.record : RecordType Declaration where
  name := "Declaration"
  fields := [
    .defaulted "kind" DeclarationKind.read fun v d => { d with kind := v },
    .defaulted "doc" text fun v d => { d with doc := v },
    .defaulted "url" text fun v d => { d with url := v },
    .defaulted "properties" (list Property.record.read) fun v d => { d with properties := v },
    .defaulted "methods" (list Method.record.read) fun v d => { d with methods := v }]
  default := {}
  isExtensible := true

def Category.record : RecordType Category where
  name := "Category"
  fields := [
    .defaulted "name" (Json.optional text) fun v c => { c with name := v },
    .defaulted "decls" (map (Json.optional Declaration.record.read))
      fun v c => { c with declarations := v }]
  default := {}
  isExtensible := true

def Description.record : RecordType Description where
  name := "Description"
  fields := [
    .defaulted "categories" (map Category.record.read) fun v d => { d with categories := v },
    .defaulted "services" (map boolean) fun v d => { d with services := ⟨v⟩ }]
  default := {}
  isExtensible := true

/-! ## Documents -/

inductive DescriptionError where
  | unreadable (error : TextError)
  | malformed (error : Json.Error)

/-- The wording for an input that is not a description. -/
def DescriptionError.message : DescriptionError → String
  | .unreadable error => "failed to read description: " ++ error.message
  | .malformed error => "malformed description document: " ++ error.message

def Method.ofText (input : String) : Except Json.Error Method :=
  readAll Method.record.read input

def Description.ofText (input : String) : Except DescriptionError Description :=
  (readAll Description.record.read input).mapError .malformed

def Description.ofBytes (bytes : ByteArray) : Except DescriptionError Description :=
  match textOfBytes bytes with
  | .error e => .error (.unreadable e)
  | .ok input => Description.ofText input

end Ambient

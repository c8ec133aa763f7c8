import Ambient.Description
import Ambient.References
import Ambient.Settings
import Ambient.Text.Lowercase

/-!
# Names with types

How a member is written with the type it refers to.  The type goes through five
steps: a type of another category is qualified by the display name of its
owner, which becomes a reference of the module; an element type from the table
becomes `any`; a variadic type becomes an array; the three primitive types are
lowercased; and a field whose type is an enum of the same category takes the
type of that enum.

Only the first step touches the references; `Scope.annotate` does the others.
-/

namespace Ambient

/-! ## Array and variadic markers -/

def variadicMarker : List Char :=
  ['.', '.', '.']

def arrayMarker : List Char :=
  ['[', ']']

/-- What remains of a name, written backwards, without the markers it ends in. -/
def stripMarkers : List Char → List Char
  | '.' :: '.' :: '.' :: rest => stripMarkers rest
  | ']' :: '[' :: rest => stripMarkers rest
  | rest => rest

/-- Split a type name into its element and the markers behind it. -/
def splitMarkers (name : List Char) : List Char × List Char :=
  let element := (stripMarkers name.reverse).reverse
  (element, name.drop element.length)

/-- The element of a variadic type; the bare marker is no variadic type. -/
def variadicElement? (name : List Char) : Option (List Char) :=
  match name.reverse with
  | '.' :: '.' :: '.' :: c :: rest => some (c :: rest).reverse
  | _ => none

/-! ## Rewriting a type name -/

/-- Write `any` for an element type from the table and keep its markers. -/
def Overrides.substituteAny (o : Overrides) (name : List Char) : List Char :=
  let (element, markers) := splitMarkers name
  if o.isAny (String.ofList element) then ['a', 'n', 'y'] ++ markers else name

def primitiveNames : List (List Char) :=
  [['B', 'o', 'o', 'l', 'e', 'a', 'n'], ['N', 'u', 'm', 'b', 'e', 'r'],
   ['S', 't', 'r', 'i', 'n', 'g']]

/-- Whether a name is a primitive type, followed by nothing that could belong
to a longer identifier. -/
def isPrimitive (name : List Char) : Bool :=
  primitiveNames.any fun p =>
    p.isPrefixOf name && (name.drop p.length).all fun c => !isIdentifierChar c

/-- Write a primitive type, with what follows it, in lowercase. -/
def lowerPrimitive (name : List Char) : List Char :=
  if isPrimitive name then Text.lowercase name else name

/-! ## At a use site -/

/-- Where a reference to a type stands. -/
inductive Site where
  | field
  | parameter
  | result
deriving DecidableEq

/-- What a reference is resolved against: the description, the settings and the
key of the category that is being written. -/
structure Scope where
  description : Description
  settings : Settings
  category : String

namespace Scope

/-- The display name of the category that is being written. -/
def displayName (s : Scope) : String :=
  s.description.displayNameOf s.category

/-- Whether a reference stays inside the category that is being written. -/
def isOwn (s : Scope) (t : TypeRef) : Bool :=
  match t.category with
  | none => true
  | some owner => owner == s.category

/-- The name of a type as seen from the category that is being written.  The
owner of a type of another category is recorded. -/
def qualify (s : Scope) (t : TypeRef) : StateM References String :=
  match t.category with
  | none => pure t.name
  | some owner =>
      if owner = s.category then pure t.name
      else do
        modify fun r => r.insert owner
        return s.description.displayNameOf owner ++ "." ++ t.name

/-- Whether a reference is a field's reference to an enum of the category. -/
def isEnumField (s : Scope) (t : TypeRef) (site : Site) : Bool :=
  site == .field && s.isOwn t &&
    (match s.description.category? s.category with
      | none => false
      | some c => c.isEnum t.name)

/-- Write a member with its type, whose qualified name is given. -/
def annotate (s : Scope) (name : String) (t : TypeRef) (site : Site) (qualified : String) :
    String :=
  let type := s.settings.overrides.substituteAny qualified.toList
  let (name, type) := match variadicElement? type with
    | none => (name, type)
    | some element =>
        (if site = .parameter then "..." ++ name else name, element ++ arrayMarker)
  let type := String.ofList (lowerPrimitive type)
  if s.isEnumField t site then name ++ ": typeof " ++ type else name ++ ": " ++ type

/-- Write a member with its type and record the category that the type needs. -/
def typedName (s : Scope) (name : String) (t : TypeRef) (site : Site) :
    StateM References String := do
  let qualified ← s.qualify t
  return s.annotate name t site qualified

end Scope

end Ambient

import Ambient.Name
import Ambient.SortedMap

/-!
# API descriptions

A description is a read-only tree: categories, each of which becomes one
module; declarations in a category; properties and methods in a declaration,
each with a reference to a type.  Beside the tree stands the index of services,
the URLs of declarations that exist as global values.

Everything that is looked up by a key stands in a sorted map, so nothing
depends on the order of the document.
-/

namespace Ambient

/-! ## The tree -/

/-- A reference to a type; without a category it means the category in which
the reference stands. -/
structure TypeRef where
  name : String := ""
  category : Option String := none
deriving DecidableEq

/-- A property of an interface, or a constant of an enum. -/
structure Property where
  name : String := ""
  type : TypeRef := {}
  isDeprecated : Bool := false
deriving DecidableEq

structure Parameter where
  name : String := ""
  type : TypeRef := {}
  doc : String := ""
deriving DecidableEq

structure Method where
  name : String := ""
  parameters : List Parameter := []
  returnType : TypeRef := {}
  doc : String := ""
  url : String := ""
  isDeprecated : Bool := false
deriving DecidableEq

/-- How a declaration renders. -/
inductive DeclarationKind where
  | enum
  | interface
deriving DecidableEq

/-- An enum with its constants, or an interface with its members. -/
structure Declaration where
  kind : DeclarationKind := .interface
  doc : String := ""
  url : String := ""
  properties : List Property := []
  methods : List Method := []
deriving DecidableEq

/-- A group of declarations.  A key whose declaration is absent is remembered,
so that emission can report it. -/
structure Category where
  name : Option String := none
  declarations : SortedMap (Option Declaration) := {}
deriving DecidableEq

/-- The URLs of declarations, with whether the declaration is a service. -/
structure ServiceIndex where
  entries : SortedMap Bool := {}
deriving DecidableEq

structure Description where
  categories : SortedMap Category := {}
  services : ServiceIndex := {}
deriving DecidableEq

/-! ## Look-ups -/

/-- The display name of a category that is absent or has no name. -/
def unknownCategory : String :=
  "UNKNOWN"

/-- The name of the namespace that holds a category. -/
def Category.displayName (c : Category) : String :=
  match c.name with
  | some name => namespaceName name
  | none => unknownCategory

/-- Whether an enum is declared under a key. -/
def Category.isEnum (c : Category) (key : String) : Bool :=
  match c.declarations.get? key with
  | some (some d) => d.kind == .enum
  | _ => false

/-- The declarations that are present, in key order. -/
def Category.present (c : Category) : List (String × Declaration) :=
  c.declarations.entries.filterMap fun (key, d) => d.map (key, ·)

/-- Whether the declaration with a URL is a service. -/
def ServiceIndex.isService (s : ServiceIndex) (url : String) : Bool :=
  (s.entries.get? url).getD false

/-- The index of a list of pairs; of several pairs with one URL the last one counts. -/
def ServiceIndex.ofList (pairs : List (String × Bool)) : ServiceIndex :=
  ⟨.ofList pairs⟩

def ServiceIndex.size (s : ServiceIndex) : Nat :=
  s.entries.size

def Description.category? (d : Description) (key : String) : Option Category :=
  d.categories.get? key

/-- The display name of the category with a key. -/
def Description.displayNameOf (d : Description) (key : String) : String :=
  match d.category? key with
  | some c => c.displayName
  | none => unknownCategory

end Ambient

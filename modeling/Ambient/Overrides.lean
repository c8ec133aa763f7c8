import Ambient.SortedSet

/-!
# Override tables

Four tables adapt the emitted modules to an existing ecosystem of typings: the
types that become `any`, the interfaces that extend another one, the global
bindings that are written as comments, and the parameter names that occur twice
in one signature.  There is a built-in value of each table.
-/

namespace Ambient

/-- A rule that lets the interfaces with given names extend `base`, everywhere
or inside the category with one display name. -/
structure ExtendsRule where
  names : SortedSet := {}
  base : String := ""
  category : Option String := none
deriving DecidableEq

structure Overrides where
  /-- Element types that are written `any`. -/
  anyTypes : SortedSet
  /-- Rules for the base of an interface; the first that applies counts. -/
  extensions : List ExtendsRule
  /-- Bindings that are written as comments, with the note above each. -/
  commentedExports : SortedMap String
  /-- Parameter names of which a later occurrence in one signature gets a `_`. -/
  duplicateParameters : List String
deriving DecidableEq

/-! ## The built-in tables -/

/-- The names of the elements of a document. -/
def documentElements : List String :=
  ["Body", "ContainerElement", "Equation", "EquationFunction",
   "EquationFunctionArgumentSeparator", "EquationSymbol", "FooterSection", "Footnote",
   "FootnoteSection", "HeaderSection", "HorizontalRule", "InlineDrawing", "InlineImage",
   "ListItem", "PageBreak", "Paragraph", "Table", "TableCell", "TableOfContents", "TableRow",
   "Text", "UnsupportedElement"]

/-- The tables that hold where nothing else is given. -/
def Overrides.builtIn : Overrides where
  anyTypes := .ofList ["Object", "TimeInterval", "TargetAudience"]
  extensions := [
    { names := .ofList ["Blob"], base := "BlobSource" },
    { names := .ofList documentElements, base := "Element", category := some "Document" }]
  commentedExports := .ofList [("MimeType", "conflicts with MimeType in lib.d.ts")]
  duplicateParameters := ["sql"]

/-! ## Look-ups -/

/-- Whether a rule applies to an interface in the category with a display name. -/
def ExtendsRule.applies (r : ExtendsRule) (name category : String) : Bool :=
  r.names.contains name && (match r.category with
    | none => true
    | some c => c == category)

/-- The base of an interface in the category with a display name. -/
def Overrides.base? (o : Overrides) (name category : String) : Option String :=
  (o.extensions.find? (·.applies name category)).map (·.base)

/-- Whether an element type is written `any`. -/
def Overrides.isAny (o : Overrides) (name : String) : Bool :=
  o.anyTypes.contains name

/-- The note above a binding that is written as a comment. -/
def Overrides.exportNote? (o : Overrides) (name : String) : Option String :=
  o.commentedExports.get? name

end Ambient

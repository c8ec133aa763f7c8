/-!
# Names

A display name becomes the name of a namespace by writing `_` for every
character that is neither an ASCII letter or digit nor `_` itself.

The key of a declaration may be dotted: the part after the last dot is the name
of the declaration, and the parts before it are the namespaces around it,
outermost first.
-/

namespace Ambient

/-- Whether a character is an ASCII letter, an ASCII digit or `_`. -/
def isIdentifierChar (c : Char) : Bool :=
  c.isAlphanum || c == '_'

def namespaceName (name : String) : String :=
  String.ofList (name.toList.map fun c => if isIdentifierChar c then c else '_')

/-- The parts of a dotted key: the namespaces, outermost first, and the name inside them. -/
structure KeyPath where
  namespaces : List String
  leaf : String
deriving DecidableEq

/-- Split a key at its dots. -/
def KeyPath.ofKey (key : String) : KeyPath :=
  let parts := (key.toList.splitOn '.').map String.ofList
  ⟨parts.dropLast, parts.getLastD ""⟩

end Ambient

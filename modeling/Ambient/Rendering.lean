import Ambient.DocBlock
import Ambient.ParameterPatch
import Ambient.TypeName

/-!
# Rendering declarations

A declaration becomes its documentation block, one namespace for each part of
its key before the name, and inside them the enum or interface.  An enum is one
line with the names of its constants.  An interface lists its properties and
then, each after an empty line and its own documentation, its methods; deprecated
methods are left out and deprecated properties are marked.  An interface
without members is one line.

Rendering records the categories that the types of members need.
-/

namespace Ambient

/-- An opening brace at the end of a line. -/
def openBrace : String :=
  " \x7b"

def closeBrace : String :=
  "\x7d"

/-- What stands before a deprecated property. -/
def deprecationNotice : String :=
  "/** @deprecated DO NOT USE */ "

namespace Scope

/-! ## Members -/

def renderProperty (s : Scope) (p : Property) : StateM References String := do
  let typed ← s.typedName p.name p.type .field
  return (if p.isDeprecated then deprecationNotice else "") ++ typed ++ ";"

/-- The parameter list of a method, patched where a name occurs twice. -/
def renderParameters (s : Scope) (m : Method) : StateM References String := do
  let typed ← m.parameters.mapM fun p => s.typedName p.name p.type .parameter
  return ParameterPatch.applyAll s.settings.overrides.duplicateParameters (", ".intercalate typed)

/-- A method with its parameters and the type of its result. -/
def renderSignature (s : Scope) (m : Method) : StateM References String := do
  let parameters ← s.renderParameters m
  s.typedName (m.name ++ "(" ++ parameters ++ ")") m.returnType .result

def renderMethod (s : Scope) (m : Method) : StateM References (List String) := do
  let signature ← s.renderSignature m
  return m.docBlock ++ [signature ++ ";"]

def renderMembers (s : Scope) (d : Declaration) : StateM References (List String) := do
  let properties ← d.properties.mapM s.renderProperty
  let methods ← (d.methods.filter (!·.isDeprecated)).mapM s.renderMethod
  return properties.map ("  " ++ ·) ++ methods.flatMap fun lines => "" :: lines.map ("  " ++ ·)

/-! ## Declarations -/

/-- The first line of an interface up to its brace. -/
def interfaceHead (s : Scope) (name : String) : String :=
  match s.settings.overrides.base? name s.displayName with
  | some base => "interface " ++ name ++ " extends " ++ base ++ openBrace
  | none => "interface " ++ name ++ openBrace

def renderInterface (s : Scope) (name : String) (d : Declaration) :
    StateM References (List String) := do
  let members ← s.renderMembers d
  if members.isEmpty then return [s.interfaceHead name ++ " " ++ closeBrace]
  else return [s.interfaceHead name] ++ members ++ [closeBrace]

end Scope

def renderEnum (name : String) (d : Declaration) : String :=
  "enum " ++ name ++ openBrace ++ " " ++ ", ".intercalate (d.properties.map (·.name)) ++ " " ++
    closeBrace

/-- The lines of a declaration, not indented. -/
def Scope.renderDeclaration (s : Scope) (key : String) (d : Declaration) :
    StateM References (List String) := do
  let path := KeyPath.ofKey key
  let inner ← match d.kind with
    | .enum => pure [renderEnum path.leaf d]
    | .interface => s.renderInterface path.leaf d
  return docBlock d.doc ++ path.namespaces.map (fun n => "namespace " ++ n ++ openBrace) ++ inner ++
    path.namespaces.map fun _ => closeBrace

end Ambient

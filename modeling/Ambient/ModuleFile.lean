import Ambient.Rendering
import Ambient.SortedSet

/-!
# Module files

One category becomes one module.  A `Draft` holds the parts of a module before
they are text: the header, the categories it refers to, one block of lines for
each declaration, and the names it exports.  `Draft.lines` puts the parts in
their order: header, one directive for each reference, an empty line, the
namespaces with the blocks inside, an empty line, and one binding for each
export.  `finish` makes the lines a file: no white space at the end of a line,
no blank lines at the end, one line feed after the last line.
-/

namespace Ambient

open Text

/-! ## Text -/

/-- Indent a line of a part, unless it is empty. -/
def indent (line : String) : String :=
  if line = "" then "" else "    " ++ line

/-- The text of a file: every line without white space at its end, and one
line feed after the last line that is not blank. -/
def finish (cs : List Char) : List Char :=
  trimEnd (joinLines ((splitLines cs).map trimEnd)) ++ ['\n']

/-! ## Drafts -/

/-- The lines of one declaration. -/
structure Block where
  key : String
  lines : List String
deriving DecidableEq

/-- The parts of a module. -/
structure Draft where
  category : String
  displayName : String
  references : References
  blocks : List Block
  exports : SortedSet
deriving DecidableEq

/-- The names of the services of a category, which are exported. -/
def exportedNames (services : ServiceIndex) (c : Category) : SortedSet :=
  .ofList ((c.present.filter fun e => services.isService e.2.url).map fun e =>
    (KeyPath.ofKey e.1).leaf)

/-- The blocks of a category, in key order. -/
def Scope.renderBlocks (s : Scope) (c : Category) : StateM References (List Block) :=
  c.present.mapM fun (key, d) => do
    let lines ← s.renderDeclaration key d
    return ⟨key, lines⟩

/-- The parts of the module of a category. -/
def Scope.draft (s : Scope) (c : Category) : Draft :=
  let (blocks, references) := (s.renderBlocks c).run (.start s.settings.foundational)
  { category := s.category
    displayName := c.displayName
    references := references
    blocks := blocks
    exports := exportedNames s.description.services c }

def Settings.directive (s : Settings) (category : String) : String :=
  "/// <reference path=\"" ++ s.fileName category ++ "\" />"

/-- The lines that make an export a global name; some are written as a comment
under a note. -/
def Draft.binding (d : Draft) (s : Settings) (name : String) : List String :=
  let line := "declare var " ++ name ++ ": " ++ s.outerNamespace ++ "." ++ d.displayName ++ "." ++
    name ++ ";"
  match s.overrides.exportNote? name with
  | some note => ["// " ++ note, "// " ++ line]
  | none => [line]

/-- The lines from the outer namespace to the last binding. -/
def Draft.body (d : Draft) (s : Settings) : List String :=
  ["declare namespace " ++ s.outerNamespace ++ openBrace,
   "  namespace " ++ d.displayName ++ openBrace] ++
    d.blocks.flatMap (fun b => b.lines.map indent) ++
    ["  " ++ closeBrace, closeBrace, ""] ++
    d.exports.toList.flatMap (d.binding s)

def Draft.lines (d : Draft) (s : Settings) : List String :=
  (if s.header = "" then [] else [s.header]) ++ d.references.keys.map s.directive ++ [""] ++ d.body s

def Draft.text (d : Draft) (s : Settings) : String :=
  String.ofList (finish ("\n".intercalate (d.lines s)).toList)

/-! ## Files -/

structure ModuleFile where
  key : String
  fileName : String
  references : List String
  exports : List String
  text : String
deriving DecidableEq

def Scope.moduleFile (s : Scope) (c : Category) : ModuleFile :=
  let d := s.draft c
  { key := s.category
    fileName := s.settings.fileName s.category
    references := d.references.keys
    exports := d.exports.toList
    text := d.text s.settings }

/-- The module of the category with a key, if there is one. -/
def emitCategory (d : Description) (s : Settings) (key : String) : Option ModuleFile :=
  (d.category? key).map fun c => Scope.moduleFile ⟨d, s, key⟩ c

/-- The modules of all categories, in key order. -/
def emitAll (d : Description) (s : Settings) : List ModuleFile :=
  d.categories.keys.filterMap (emitCategory d s)

/-! ## Settings that cannot be used -/

/-- A name that is too long to be searched for in signatures. -/
structure OversizedName where
  name : String
deriving DecidableEq

def OversizedName.reason (_ : OversizedName) : String :=
  "Compiled regex exceeds size limit of 10485760 bytes."

def OversizedName.message (e : OversizedName) : String :=
  "invalid duplicate-parameter override \x60" ++ e.name ++ "\x60: " ++ e.reason

/-- Refuse settings with a name that is too long, by the first such name. -/
def Settings.check (s : Settings) : Except OversizedName Unit :=
  match s.overrides.duplicateParameters.find? (!ParameterPatch.fits ·) with
  | some name => .error ⟨name⟩
  | none => .ok ()

end Ambient

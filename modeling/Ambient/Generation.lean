import Ambient.CommandLine
import Ambient.Description.Reading
import Ambient.FileTree
import Ambient.Header
import Ambient.Log
import Ambient.ModuleFile
import Ambient.Overrides.Reading

/-!
# Generating the modules of a description

A request names its inputs: a header template, override tables, a description.
All inputs are read before anything is written: the template first, then the
date, the override tables and the description.  Then the output directory is
created and the modules are written, in key order; the first refusal ends the
run, and what was written by then stays.

Reading is stated over `Sources`, the ways to get at inputs in some monad, and
writing over `Sinks`, the ways to leave files and events behind, so the same text
serves a tree of files and the real system.
-/

namespace Ambient

/-! ## Failures -/

inductive Failure where
  | unreadable (path : String) (error : TextError)
  | description (error : DescriptionError)
  | overrides (path : String) (error : Json.Error)
  | invalidDate (text : String)
  | settings (error : OversizedName)
  | unwritable (path : String) (error : SystemError)

def Failure.message : Failure → String
  | .unreadable path error => path ++ ": " ++ error.message
  | .description error => error.message
  | .overrides path error => "invalid overrides file " ++ path ++ ": " ++ error.message
  | .invalidDate text => "invalid date \x60" ++ text ++ "\x60, expected YYYY-MM-DD"
  | .settings error => error.message
  | .unwritable path error => path ++ ": " ++ error.message

/-! ## Inputs -/

/-- The bytes of an input, once it is open. -/
abbrev Content := Except SystemError ByteArray

/-- The ways to get at inputs: opening a file, reading the standard input, and
knowing the date. -/
structure Sources (m : Type → Type) where
  file : String → m (Except SystemError Content)
  standardInput : m Content
  today : m Date

section Loading

variable {m : Type → Type} [Monad m]

def Sources.text (s : Sources m) (path : String) : ExceptT Failure m String := do
  match ← s.file path with
  | .error e => throw (.unreadable path (.system e))
  | .ok (.error e) => throw (.unreadable path (.system e))
  | .ok (.ok bytes) =>
      match textOfBytes bytes with
      | .error e => throw (.unreadable path e)
      | .ok text => return text

/-- Read a header template and fill in the date that is given, or today. -/
def Sources.header (s : Sources m) (path : String) (date : Option String) :
    ExceptT Failure m String := do
  let template ← s.text path
  match date with
  | none => return fillDate template (← s.today)
  | some text =>
      match Date.ofText? text with
      | none => throw (.invalidDate text)
      | some d => return fillDate template d

/-- Read override tables, or take the built-in ones. -/
def Sources.overrides (s : Sources m) (path : Option String) : ExceptT Failure m Overrides := do
  match path with
  | none => return .builtIn
  | some path =>
      match Overrides.ofText (← s.text path) with
      | .error e => throw (.overrides path e)
      | .ok o => return o

def descriptionOf (content : Content) : Except Failure Description :=
  match content with
  | .error e => .error (.description (.unreadable (.system e)))
  | .ok bytes => (Description.ofBytes bytes).mapError .description

/-- Read a description from a file or from the standard input. -/
def Sources.description (s : Sources m) (path : Option String) :
    ExceptT Failure m Description := do
  match path with
  | none => liftExcept (descriptionOf (← s.standardInput))
  | some path =>
      match ← s.file path with
      | .error e => throw (.unreadable path (.system e))
      | .ok content => liftExcept (descriptionOf content)
where
  /-- A result that is known already. -/
  liftExcept {α : Type} (r : Except Failure α) : ExceptT Failure m α :=
    ExceptT.mk (pure r)

/-- What a run is asked for. -/
structure Request where
  input : Option String := none
  header : String
  outDir : String
  overrides : Option String := none
  date : Option String := none

def Options.request (o : Options) : Request :=
  ⟨o.input, o.header, o.outDir, o.overrides, o.date⟩

/-- The inputs of a run. -/
structure Inputs where
  settings : Settings
  description : Description

def Request.load (r : Request) (s : Sources m) : ExceptT Failure m Inputs := do
  let header ← s.header r.header r.date
  let overrides ← s.overrides r.overrides
  let description ← s.description r.input
  return ⟨{ header := header, overrides := overrides }, description⟩

end Loading

/-! ## Events -/

def runSource : String :=
  "gasdts::commands::generate"

def moduleSource : String :=
  "gasdts_typegen::emitter"

def loadedEvent (d : Description) : Log.Event :=
  ⟨.debug, runSource, "loaded description",
    [("categories", toString d.categories.size), ("services", toString d.services.size)]⟩

def writtenEvent (path : String) : Log.Event :=
  ⟨.info, runSource, "Wrote to " ++ path, []⟩

def quotedValue (text : String) : String :=
  String.ofList (Text.quoted text.toList)

/-- The events of making the module of a category: one for each key without
declaration, and one for the module. -/
def moduleEvents (d : Description) (m : ModuleFile) : List Log.Event :=
  let absent : List (String × Option Declaration) := match d.category? m.key with
    | none => []
    | some c => c.declarations.entries.filter (·.2.isNone)
  absent.map (fun e => ⟨.debug, moduleSource, "skipping undefined declaration",
    [("category", quotedValue m.key), ("declaration", e.1)]⟩) ++
  [⟨.debug, moduleSource, "emitted category",
    [("category", quotedValue m.key), ("references", toString m.references.length),
     ("exports", toString m.exports.length)]⟩]

/-! ## Carrying out a request -/

/-- The ways to leave something behind: changing files, and logging events. -/
structure Sinks (m : Type → Type) extends FileSystem m where
  log : List Log.Event → m Unit

section Writing

variable {m : Type → Type} [Monad m]

/-- Write modules into a directory, in order, up to the first refusal. -/
def Sinks.writeModules (g : Sinks m) (outDir : String) : List ModuleFile → ExceptT Failure m Unit
  | [] => return
  | f :: rest => do
      let path := joinPath outDir f.fileName
      match ← g.writeFile path f.text.toUTF8 with
      | .error e => throw (.unwritable path e)
      | .ok _ =>
          g.log [writtenEvent path]
          g.writeModules outDir rest

/-- Carry out a request whose inputs have been read. -/
def Inputs.carryOut (i : Inputs) (g : Sinks m) (outDir : String) : ExceptT Failure m Unit := do
  g.log [loadedEvent i.description]
  match i.settings.check with
  | .error e => throw (.settings e)
  | .ok _ =>
      match ← g.createDirectories outDir with
      | .error e => throw (.unwritable outDir e)
      | .ok _ =>
          let modules := emitAll i.description i.settings
          g.log (modules.flatMap (moduleEvents i.description))
          g.writeModules outDir modules

end Writing

/-! ## Runs in a tree of files -/

/-- The inputs that a tree of files and the bytes of the standard input give. -/
def FileTree.sources (t : FileTree) (stdin : ByteArray) (today : Date) : Sources Id where
  file := fun path => (t.openPath path).map Entry.bytes
  standardInput := .ok stdin
  today := today

/-- A tree of files and the events that were logged. -/
structure World where
  tree : FileTree
  events : List Log.Event

namespace World

/-- An action on the tree; it logs nothing. -/
def onTree {α : Type} (act : StateM FileTree α) : StateM World α := fun w =>
  let (a, t) := act.run w.tree
  (a, { w with tree := t })

/-- A tree takes files, and events are kept in order. -/
def sinks : Sinks (StateM World) where
  makeDirectory names := onTree (FileTree.system.makeDirectory names)
  isDirectory names := onTree (FileTree.system.isDirectory names)
  writeFile path content := onTree (FileTree.system.writeFile path content)
  log events := modify fun w => { w with events := w.events ++ events }

end World

/-- What a run leaves behind: the tree, the events and how it ended. -/
structure Run where
  tree : FileTree
  events : List Log.Event
  result : Except Failure Unit

/-- What carrying something out in a tree leaves behind. -/
def Run.of (act : ExceptT Failure (StateM World) Unit) (t : FileTree) : Run :=
  let (result, w) := act.run.run ⟨t, []⟩
  ⟨w.tree, w.events, result⟩

/-- Write modules into a directory of a tree. -/
def writeModules (outDir : String) (t : FileTree) (modules : List ModuleFile) : Run :=
  .of (World.sinks.writeModules outDir modules) t

/-- Carry out a request in a tree, once its inputs have been read. -/
def Inputs.run (i : Inputs) (outDir : String) (t : FileTree) : Run :=
  .of (i.carryOut World.sinks outDir) t

def Request.run (r : Request) (stdin : ByteArray) (today : Date) (t : FileTree) : Run :=
  match (r.load (t.sources stdin today)).run with
  | .error e => ⟨t, [], .error e⟩
  | .ok inputs => inputs.run r.outDir t

end Ambient

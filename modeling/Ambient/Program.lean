import Ambient.Generation
import Ambient.Log.Filter
import Ambient.Overrides.Layout

/-!
# The program

The program either prints override tables or carries out a request.  A failure
is one line on the standard error and exit code 1; a command line that is not
used gives exit code 2, and 0 if it asks for help.

Which events are logged is decided by the filter of the environment, if there is
a valid one, and otherwise by the verbose switch.
-/

namespace Ambient

def filterVariable : String :=
  "GASDTS_LOG"

def usage : String :=
  "Usage: gasdts [--input FILE] [--header FILE] [--out-dir DIR] [--overrides FILE] " ++
    "[--date DATE] [--print-overrides] [--verbose]\n"

def Options.filter (o : Options) (setting : Option String) : Log.Filter :=
  match setting.bind Log.Filter.ofText? with
  | some f => f
  | none => .upTo (if o.verbose then .debug else .info)

def Failure.line (f : Failure) : String :=
  "error: " ++ f.message ++ "\n"

/-- What a run of the program shows and leaves behind. -/
structure Outcome where
  exitCode : Nat
  stdout : String
  stderr : String
  tree : FileTree

def logText (f : Log.Filter) (events : List Log.Event) : String :=
  String.join ((events.filter f.shows).map (·.line))

/-- Run the program in a tree of files. -/
def runProgram (args : List String) (setting : Option String) (stdin : ByteArray) (today : Date)
    (t : FileTree) : Outcome :=
  match Options.ofArguments args with
  | .error .helpWanted => ⟨UsageError.helpWanted.exitCode, usage, "", t⟩
  | .error e => ⟨e.exitCode, "", usage, t⟩
  | .ok o =>
      if o.printOverrides then
        match ((t.sources stdin today).overrides o.overrides).run with
        | .error e => ⟨1, "", e.line, t⟩
        | .ok tables => ⟨0, tables.toText ++ "\n", "", t⟩
      else
        let run := o.request.run stdin today t
        let shown := logText (o.filter setting) run.events
        match run.result with
        | .error e => ⟨1, "", shown ++ e.line, run.tree⟩
        | .ok _ => ⟨0, "", shown, run.tree⟩

end Ambient

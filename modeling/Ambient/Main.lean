import Ambient.Program
import Std.Time

/-!
# The command line program

The outer layer: it gets at files, the standard input, the date and the
environment.  What is read, created, written and logged, and in which order, is
the library's `Request.load` and `Inputs.carryOut`.
-/

namespace Ambient

/-- The refusal behind an error of the system. -/
def SystemError.ofError : IO.Error → SystemError
  | .noFileOrDirectory _ 2 _ => .noSuchEntry
  | .alreadyExists _ 17 _ => .alreadyExists
  | .inappropriateType _ 20 _ => .notDirectory
  | .inappropriateType _ 21 _ => .isDirectory
  | .invalidArgument _ 36 _ => .nameTooLong
  | e => .other (toString e)

def attempt {α : Type} (act : IO α) : IO (Except SystemError α) := do
  match ← act.toBaseIO with
  | .ok a => return .ok a
  | .error e => return .error (.ofError e)

/-- Do something with a path, unless the path holds a character that ends it early. -/
def attemptAt {α : Type} (path : String) (act : IO α) : IO (Except SystemError α) := do
  match FileTree.checkPath path with
  | .error .nulInName => return .error .nulInName
  | _ => attempt act

/-- All bytes of a stream; each call reads one piece of it. -/
partial def readStream (stream : IO.FS.Stream) (seen : ByteArray) : IO ByteArray := do
  let piece ← stream.read 65536
  if piece.isEmpty then return seen
  readStream stream (seen ++ piece)

def currentDate : IO Date := do
  let d ← Std.Time.PlainDate.now
  match Date.of? d.year.toInt d.month.toNat d.day.toNat with
  | some date => return date
  | none => throw (IO.userError "the clock shows no date")

def systemSources : Sources IO where
  file := fun path => do
    match ← attemptAt path (IO.FS.Handle.mk path .read) with
    | .error e => return .error e
    | .ok handle => return .ok (← attempt handle.readBinToEnd)
  standardInput := do attempt (readStream (← IO.getStdin) .empty)
  today := currentDate

/-- The files and the log of the real system.  A directory is told by its own
entry `.`, whose creation it refuses as existing. -/
def systemSinks (f : Log.Filter) : Sinks IO where
  makeDirectory names := do
    let path := FileTree.pathText names
    attemptAt path (IO.FS.createDir path)
  isDirectory names := do
    match ← attempt (IO.FS.createDir (FileTree.pathText names ++ "/.")) with
    | .error .alreadyExists => return true
    | _ => return false
  writeFile path content := attemptAt path (IO.FS.writeBinFile path content)
  log events := do (← IO.getStderr).putStr (logText f events)

/-- Carry out a request in the real system. -/
def Request.execute (r : Request) (f : Log.Filter) : ExceptT Failure IO Unit := do
  let inputs ← r.load systemSources
  inputs.carryOut (systemSinks f) r.outDir

def printOverrides (path : Option String) : ExceptT Failure IO Unit := do
  let tables ← systemSources.overrides path
  IO.print (tables.toText ++ "\n")

end Ambient

def main (args : List String) : IO UInt32 := do
  match Ambient.Options.ofArguments args with
  | .error e =>
      if e = .helpWanted then IO.print Ambient.usage else IO.eprint Ambient.usage
      return e.exitCode.toUInt32
  | .ok o =>
      let filter := o.filter (← IO.getEnv Ambient.filterVariable)
      let result ←
        if o.printOverrides then (Ambient.printOverrides o.overrides).run
        else (o.request.execute filter).run
      match result with
      | .ok _ => return 0
      | .error e =>
          IO.eprint e.line
          return 1

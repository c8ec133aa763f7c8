import Ambient.SystemError

/-!
# Trees of files

A tree is a list of entries under their locations.  A location leads name by
name from the working directory, and behind a `..` or a `/` at its start from a
directory above it or from the root of the system; nothing else is known there,
and listings show only what is below the working directory.

A path text is followed name by name: an empty name and `.` stay, `..` goes up,
and only a directory can be left for another entry.

The operations are reading, creating one directory, and writing a file.  An
operation that fails names the refusal and leaves the tree as it was.

Creating a directory with those above it is stated over `FileSystem`, the
operations in some monad, so the same text serves a tree and the real system;
what it had created by a refusal stays.
-/

namespace Ambient

/-- What stands at a path. -/
inductive Entry where
  | directory
  | file (content : ByteArray)

/-- The names that lead to an entry. -/
abbrev Location := List String

/-- Whether a location is the working directory, a directory above it, or the
root, each of which is always there. -/
def Location.isAnchor (l : Location) : Bool :=
  l == ["/"] || l.all (· == "..")

/-- Whether a location is below the working directory. -/
def Location.isInside : Location → Bool
  | [] => false
  | name :: _ => name != "/" && name != ".."

def Location.up (l : Location) : Location :=
  if l == ["/"] then l
  else if l.isAnchor then l ++ [".."]
  else l.dropLast

structure FileTree where
  entries : List (Location × Entry) := []

/-- Put an entry at a location, in the place of the one that is there. -/
def setEntry (l : Location) (e : Entry) : List (Location × Entry) → List (Location × Entry)
  | [] => [(l, e)]
  | (l', e') :: rest => if l' = l then (l, e) :: rest else (l', e') :: setEntry l e rest

namespace FileTree

def entry? (t : FileTree) (l : Location) : Option Entry :=
  if Location.isAnchor l then some .directory else t.entries.lookup l

def set (t : FileTree) (l : Location) (e : Entry) : FileTree :=
  ⟨setEntry l e t.entries⟩

/-! ## Following paths -/

/-- The longest name that a directory can hold, in bytes. -/
def longestName : Nat :=
  255

/-- The first length in bytes for which a path is refused. -/
def pathLimit : Nat :=
  4096

/-- The names of a path text, between its slashes. -/
def segments (path : String) : List String :=
  (path.toList.splitOn '/').map String.ofList

/-- Refuse a path text that no system call takes. -/
def checkPath (path : String) : Except SystemError Unit :=
  if path.toList.contains '\x00' then .error .nulInName
  else if path = "" then .error .noSuchEntry
  else if pathLimit ≤ path.utf8ByteSize then .error .nameTooLong
  else .ok ()

/-- Refuse a location that is no directory. -/
def checkDirectory (t : FileTree) (l : Location) : Except SystemError Unit :=
  match t.entry? l with
  | some .directory => .ok ()
  | some (.file _) => .error .notDirectory
  | none => .error .noSuchEntry

/-- Go from a directory to one of its entries. -/
def step (t : FileTree) (l : Location) (name : String) : Except SystemError Location := do
  t.checkDirectory l
  if name = "" ∨ name = "." then return l
  else if name = ".." then return Location.up l
  else if longestName < name.utf8ByteSize then throw .nameTooLong
  else if (t.entry? (l ++ [name])).isNone then throw .noSuchEntry
  else return l ++ [name]

/-- Follow names from the working directory, or from the root if the first one
is empty. -/
def walk (t : FileTree) : List String → Except SystemError Location
  | "" :: names => names.foldlM t.step ["/"]
  | names => names.foldlM t.step []

def openPath (t : FileTree) (path : String) : Except SystemError Entry := do
  checkPath path
  let l ← t.walk (segments path)
  match t.entry? l with
  | some e => return e
  | none => throw .noSuchEntry

/-! ## Creating and writing -/

/-- Where a new entry with the last of some names would stand: the directory of
the other names and that last name. -/
def place (t : FileTree) (names : List String) : Except SystemError (Location × String) := do
  let l ← t.walk names.dropLast
  t.checkDirectory l
  return (l, names.getLastD "")

def isDirectory (t : FileTree) (names : List String) : Bool :=
  match t.walk names with
  | .ok l => (t.checkDirectory l).isOk
  | .error _ => false

/-- The names without empty ones at the end, which say nothing more when a
directory is created. -/
def trimSegments (names : List String) : List String :=
  (names.reverse.dropWhile (· == "")).reverse

/-- Create the directory that some names lead to, inside one that exists. -/
def makeDirectory (t : FileTree) (names : List String) : Except SystemError FileTree := do
  let (l, name) ← t.place (trimSegments names)
  if name = "" ∨ name = "." ∨ name = ".." then throw .alreadyExists
  else if longestName < name.utf8ByteSize then throw .nameTooLong
  else if (t.entry? (l ++ [name])).isSome then throw .alreadyExists
  else return t.set (l ++ [name]) .directory

/-- Write a file, in the place of the one that is there. -/
def writeFile (t : FileTree) (path : String) (content : ByteArray) :
    Except SystemError FileTree := do
  checkPath path
  let (l, name) ← t.place (segments path)
  if name = "" ∨ name = "." ∨ name = ".." then throw .isDirectory
  else if longestName < name.utf8ByteSize then throw .nameTooLong
  else match t.entry? (l ++ [name]) with
    | some .directory => throw .isDirectory
    | _ => return t.set (l ++ [name]) (.file content)

/-! ## Directories with those above them -/

/-- The names that remain of a path when it is taken apart: an empty one or `.`
only at the start. -/
def properNames : List String → List String
  | [] => []
  | name :: rest => name :: rest.filter fun n => n != "" && n != "."

/-- The directories on the way to a path, from the path upwards. -/
def chain (path : String) : List (List String) :=
  let names := segments path
  let proper := properNames names
  names :: ((List.range' 1 (proper.length - 1)).reverse.map fun n => proper.take n)

end FileTree

/-- The ways to change the files of a system, in some monad. -/
structure FileSystem (m : Type → Type) where
  makeDirectory : List String → m (Except SystemError Unit)
  isDirectory : List String → m Bool
  writeFile : String → ByteArray → m (Except SystemError Unit)

namespace FileSystem

variable {m : Type → Type} [Monad m]

/-- A directory whose creation is refused counts as created if it exists. -/
def keepDirectory (f : FileSystem m) (names : List String) (e : SystemError) :
    m (Except SystemError Unit) := do
  if e = .alreadyExists ∧ (← f.isDirectory names) then return .ok () else return .error e

/-- Create a directory, or keep the one that exists. -/
def ensureDirectory (f : FileSystem m) (names : List String) : m (Except SystemError Unit) := do
  match ← f.makeDirectory names with
  | .ok _ => return .ok ()
  | .error e => f.keepDirectory names e

/-- Create a directory and, where one is missing, those above it; the names lead
from the directory upwards. -/
def makeChain (f : FileSystem m) : List (List String) → m (Except SystemError Unit)
  | [] => return .ok ()
  | names :: above => do
      match ← f.makeDirectory names with
      | .ok _ => return .ok ()
      | .error .noSuchEntry =>
          match ← f.makeChain above with
          | .error e => return .error e
          | .ok _ => f.ensureDirectory names
      | .error e => f.keepDirectory names e

/-- Create a directory with those above it; the empty path is the
working directory. -/
def createDirectories (f : FileSystem m) (path : String) : m (Except SystemError Unit) :=
  if path = "" then return .ok ()
  else
    match FileTree.checkPath path with
    | .error e => return .error e
    | .ok _ => f.makeChain (FileTree.chain path)

end FileSystem

namespace FileTree

/-- An operation that is refused leaves the tree as it was. -/
def orKeep (operation : FileTree → Except SystemError FileTree) :
    StateM FileTree (Except SystemError Unit) := fun t =>
  match operation t with
  | .ok t' => (.ok (), t')
  | .error e => (.error e, t)

def system : FileSystem (StateM FileTree) where
  makeDirectory names := orKeep (makeDirectory · names)
  isDirectory names := fun t => (t.isDirectory names, t)
  writeFile path content := orKeep (writeFile · path content)

/-- Create a directory with those above it in a tree. -/
def createDirectories (t : FileTree) (path : String) : FileTree × Except SystemError Unit :=
  ((system.createDirectories path).run t).swap

/-! ## Listings -/

def pathText (l : Location) : String :=
  "/".intercalate l

/-- The locations of the directories below the working directory. -/
def directories (t : FileTree) : List Location :=
  t.entries.filterMap fun (l, e) => match e with
    | .directory => if Location.isInside l then some l else none
    | .file _ => none

/-- The files below the working directory with their contents. -/
def files (t : FileTree) : List (Location × ByteArray) :=
  t.entries.filterMap fun (l, e) => match e with
    | .directory => none
    | .file content => if Location.isInside l then some (l, content) else none

end FileTree

/-- The bytes of an entry; a directory has none. -/
def Entry.bytes : Entry → Except SystemError ByteArray
  | .directory => .error .isDirectory
  | .file content => .ok content

/-- The path of an entry in a directory. -/
def joinPath (directory name : String) : String :=
  if directory = "" then name
  else if directory.toList.getLast? = some '/' then directory ++ name
  else directory ++ "/" ++ name

end Ambient

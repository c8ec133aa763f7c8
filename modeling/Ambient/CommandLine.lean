/-!
# The command line

Five settings take a value and two switches take none.  A value stands in the
same argument after `=`, directly behind the short letter, or in the next
argument if that does not look like an option.  Each may be given once, and
there are no other arguments.

Arguments are read from left to right.  A setting whose value stands in an
argument of its own is settled when the next known option or the end is
reached; an argument that nothing knows is reported at once.
-/

namespace Ambient

/-! ## What can be given -/

/-- An option with a value. -/
inductive Setting where
  | input
  | header
  | outDir
  | overrides
  | date
deriving DecidableEq

/-- An option without a value. -/
inductive Switch where
  | printOverrides
  | verbose
deriving DecidableEq

/-- What a long name or a short letter stands for. -/
inductive Flag where
  | setting (s : Setting)
  | switch (s : Switch)
  | help
deriving DecidableEq

def Flag.ofLong? (name : String) : Option Flag :=
  if name = "input" then some (.setting .input)
  else if name = "header" then some (.setting .header)
  else if name = "out-dir" then some (.setting .outDir)
  else if name = "overrides" then some (.setting .overrides)
  else if name = "date" then some (.setting .date)
  else if name = "print-overrides" then some (.switch .printOverrides)
  else if name = "verbose" then some (.switch .verbose)
  else if name = "help" then some .help
  else none

def Flag.ofShort? (letter : Char) : Option Flag :=
  if letter = 'i' then some (.setting .input)
  else if letter = 'o' then some (.setting .outDir)
  else if letter = 'v' then some (.switch .verbose)
  else if letter = 'h' then some .help
  else none

/-- Whether the value is a path, which is never empty. -/
def Setting.isPath : Setting → Bool
  | .date => false
  | _ => true

structure Options where
  input : Option String := none
  header : String := "HEADER"
  outDir : String := "google-apps-script"
  overrides : Option String := none
  date : Option String := none
  printOverrides : Bool := false
  verbose : Bool := false
deriving DecidableEq

inductive UsageError where
  | unknownArgument
  | invalidValue
  | tooManyValues
  | argumentConflict
  | helpWanted
deriving DecidableEq

/-- The exit code for a command line that is not used. -/
def UsageError.exitCode : UsageError → Nat
  | .helpWanted => 0
  | _ => 2

/-! ## The shape of an argument -/

/-- What an argument looks like. -/
inductive Argument where
  | endOfOptions
  | long (name : String) (value : Option String)
  | short (letters : List Char)
  | plain (text : String)
deriving DecidableEq

/-- The shape of an argument; `-` by itself is plain. -/
def Argument.ofText (arg : String) : Argument :=
  match arg.toList with
  | ['-', '-'] => .endOfOptions
  | '-' :: '-' :: rest =>
      let value := match rest.dropWhile (· != '=') with
        | [] => none
        | _ :: v => some (String.ofList v)
      .long (String.ofList (rest.takeWhile (· != '='))) value
  | '-' :: c :: rest => .short (c :: rest)
  | _ => .plain arg

/-! ## Reading -/

/-- What has been read so far: the values and switches that are settled, the
setting whose value is not, and whether options have ended. -/
structure Progress where
  values : List (Setting × String) := []
  switches : List Switch := []
  pending : Option (Setting × Option String) := none
  ended : Bool := false

namespace Progress

def assign (p : Progress) (s : Setting) (value : String) : Except UsageError Progress :=
  if (p.values.lookup s).isSome then .error .argumentConflict
  else if s.isPath ∧ value = "" then .error .invalidValue
  else .ok { p with values := (s, value) :: p.values }

def settle (p : Progress) : Except UsageError Progress :=
  match p.pending with
  | none => .ok p
  | some (_, none) => .error .invalidValue
  | some (s, some value) => { p with pending := none }.assign s value

def turnOn (p : Progress) (s : Switch) : Except UsageError Progress :=
  if s ∈ p.switches then .error .argumentConflict
  else .ok { p with switches := s :: p.switches }

def readLong (p : Progress) (name : String) (value : Option String) :
    Except UsageError Progress :=
  match Flag.ofLong? name, value with
  | none, _ => .error .unknownArgument
  | some (.setting s), some value => do (← p.settle).assign s value
  | some (.setting s), none => do return { ← p.settle with pending := some (s, none) }
  | some (.switch s), none => do (← p.settle).turnOn s
  | some .help, none => do
      let _ ← p.settle
      throw .helpWanted
  | some _, some _ => .error .tooManyValues

/-- The value that stands directly behind a short letter. -/
def attachedValue : List Char → String
  | '=' :: rest => String.ofList rest
  | rest => String.ofList rest

def readShort (p : Progress) : List Char → Except UsageError Progress
  | [] => .ok p
  | c :: rest =>
      match Flag.ofShort? c with
      | none => .error .unknownArgument
      | some (.setting s) =>
          if rest.isEmpty then do return { ← p.settle with pending := some (s, none) }
          else do (← p.settle).assign s (attachedValue rest)
      | some (.switch s) =>
          match p.settle with
          | .error e => .error e
          | .ok p =>
              match p.turnOn s with
              | .error e => .error e
              | .ok p => p.readShort rest
      | some .help => do
          let _ ← p.settle
          throw .helpWanted

def read (p : Progress) (arg : String) : Except UsageError Progress :=
  if p.ended then .error .unknownArgument
  else
    match Argument.ofText arg with
    | .endOfOptions => .ok { p with ended := true }
    | .long name value => p.readLong name value
    | .short letters => p.readShort letters
    | .plain text =>
        match p.pending with
        | some (s, none) => .ok { p with pending := some (s, some text) }
        | _ => .error .unknownArgument

/-- The options that have been read; what was not given has its default. -/
def options (p : Progress) : Options :=
  let base : Options := {}
  { input := p.values.lookup .input
    header := (p.values.lookup .header).getD base.header
    outDir := (p.values.lookup .outDir).getD base.outDir
    overrides := p.values.lookup .overrides
    date := p.values.lookup .date
    printOverrides := decide (.printOverrides ∈ p.switches)
    verbose := decide (.verbose ∈ p.switches) }

end Progress

/-- Read a command line, without the name of the program. -/
def Options.ofArguments (args : List String) : Except UsageError Options := do
  let p ← args.foldlM Progress.read {}
  let p ← p.settle
  return p.options

end Ambient

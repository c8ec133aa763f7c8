import Ambient.Log
import Ambient.Pattern

/-!
# Log filters

A filter is a list of directives between commas.  A directive gives the least
important level that is shown: for everything, for the events of the sources
that start with a given text, or for the events that have given values.  A
directive may also name a span; as no event stands in a span, such a directive
shows nothing.

Of the directives that concern an event the most specific one decides: the one
with the longest source, then the one with the most values; of equal directives
the last one counts.  An event that no directive concerns is not shown.

The form of a directive is `source[span{value,…}]=level`, in which every part
may be missing; a lone word is a level if it names one, and a source otherwise.
White space around a directive is passed over when its parts are looked for,
while the parts are cut from the directive with its white space.

A value may be asked for with its content, a number or a pattern behind `=`.
-/

namespace Ambient.Log

open Text

/-! ## Levels -/

/-- The rank that a number stands for: no level at all, or one of the five. -/
def rankOfNumber? (s : List Char) : Option Nat :=
  let digits := match s with
    | '+' :: rest => rest
    | s => s
  if digits.isEmpty || !digits.all Char.isDigit then none
  else
    let n := digits.foldl (fun n c => n * 10 + (c.toNat - '0'.toNat)) 0
    if n ≤ 5 then some n else none

/-- The rank that a name or number stands for; names may be in any case. -/
def rankOfText? (s : List Char) : Option Nat :=
  match rankOfNumber? s with
  | some n => some n
  | none =>
      let name := String.ofList (s.map Char.toLower)
      if name = "off" then some 0
      else if name = "" ∨ name = "error" then some 1
      else if name = "warn" then some 2
      else if name = "info" then some 3
      else if name = "debug" then some 4
      else if name = "trace" then some 5
      else none

/-- The rank at which every event is shown. -/
def everything : Nat :=
  Level.trace.rank

/-! ## Directives -/

/-- One directive: the source and the values of the events it concerns, the
rank up to which it shows them, and whether it asks for a span or for the
content of a value. -/
structure Directive where
  source : Option (List Char) := none
  values : List (List Char) := []
  rank : Nat := everything
  isDynamic : Bool := false

/-- Where the reading of a directive stands; the numbers are the places in the
directive, in bytes, where the current part starts. -/
inductive Stage where
  | start
  | word (begun : Nat)
  | span (begun : Nat)
  | value (begun : Nat)
  | values
  | tail
  | level (begun : Nat)

def dropBytes : Nat → List Char → List Char
  | 0, cs => cs
  | _ + 1, [] => []
  | n + 1, c :: cs => dropBytes (n + 1 - c.utf8Size) cs

def takeBytes : Nat → List Char → List Char
  | 0, _ => []
  | _ + 1, [] => []
  | n + 1, c :: cs => c :: takeBytes (n + 1 - c.utf8Size) cs

/-- The part of a text between two places. -/
def cut (cs : List Char) (first last : Nat) : List Char :=
  takeBytes (last - first) (dropBytes first cs)

/-- Whether a directive can start with a character. -/
def startsDirective (c : Char) : Bool :=
  c = '-' || c = ':' || c = '_' || isAlphanumeric c

/-- The text without a sign at its start. -/
def unsigned : List Char → List Char
  | '+' :: rest => rest
  | '-' :: rest => rest
  | s => s

/-- Whether a text is a number: digits with a point among or beside them and an
exponent, or the name of a number that is none or is infinite. -/
def isNumber (s : List Char) : Bool :=
  let s := unsigned s
  let whole := s.takeWhile Char.isDigit
  let (fraction, rest) := match s.dropWhile Char.isDigit with
    | '.' :: rest => (rest.takeWhile Char.isDigit, rest.dropWhile Char.isDigit)
    | rest => ([], rest)
  let exponent := match rest with
    | [] => ['0']
    | c :: rest => if c.toLower = 'e' then unsigned rest else []
  ["nan", "inf", "infinity"].contains (String.ofList (s.map Char.toLower)) ||
    (!(whole ++ fraction).isEmpty && !exponent.isEmpty && exponent.all Char.isDigit)

/-- The content that is asked for a value: what stands between its first `=` and
the next one. -/
def contentOf? (value : List Char) : Option (List Char) :=
  match value.dropWhile (· != '=') with
  | [] => none
  | _ :: rest => some (rest.takeWhile (· != '='))

/-- The directive that also asks for a value, which is written with or without
its content. -/
def Directive.withValue? (d : Directive) (value : List Char) : Option Directive :=
  let name := value.takeWhile (· != '=')
  match contentOf? value with
  | none => some { d with values := d.values ++ [name] }
  | some content =>
      if isNumber content || Pattern.isPattern content then
        some { d with values := d.values ++ [name], isDynamic := true }
      else none

/-- Read the character `c` that stands at place `i` of a directive. -/
def readChar (whole : List Char) (d : Directive) (stage : Stage) (i : Nat) (c : Char) :
    Option (Directive × Stage) :=
  match stage with
  | .start =>
      if c = '[' then some (d, .span (i + 1))
      else if startsDirective c then some (d, .word i)
      else none
  | .word begun =>
      if c = '=' then some ({ d with source := some (cut whole begun i) }, .level (i + 1))
      else if c = '[' then some ({ d with source := some (cut whole begun i) }, .span (i + 1))
      else some (d, .word begun)
  | .span begun =>
      if c = ']' then some ({ d with isDynamic := true }, .tail)
      else if c = '{' then
        some ({ d with isDynamic := !(cut whole begun i).isEmpty }, .value (i + 1))
      else some (d, .span begun)
  | .value begun =>
      if c = '}' then
        if (cut whole begun i).isEmpty then none
        else (d.withValue? (cut whole begun i)).map (·, .values)
      else some (d, .value begun)
  | .values => if c = ']' then some (d, .tail) else none
  | .tail => if c = '=' then some (d, .level (i + 1)) else none
  | .level begun => some (d, .level begun)

def finishDirective (whole : List Char) (d : Directive) : Stage → Option Directive
  | .word begun =>
      match rankOfText? (dropBytes begun whole) with
      | some rank => some { d with rank := rank }
      | none => some { d with source := some (dropBytes begun whole) }
  | .level begun =>
      if (dropBytes begun whole).isEmpty then some d
      else (rankOfText? (dropBytes begun whole)).map fun rank => { d with rank := rank }
  | .tail => some d
  | _ => none

/-- Read the characters of a directive from place `i` on. -/
def readDirective (whole : List Char) (d : Directive) (stage : Stage) (i : Nat) :
    List Char → Option Directive
  | [] => finishDirective whole d stage
  | c :: rest =>
      match readChar whole d stage i c with
      | none => none
      | some (d, stage) => readDirective whole d stage (i + c.utf8Size) rest

/-- The directive with a text, if it has the form of one. -/
def Directive.ofText? (s : List Char) : Option Directive :=
  readDirective s {} .start 0 (trim s)

def Directive.concerns (d : Directive) (e : Event) : Bool :=
  !d.isDynamic &&
    (match d.source with
      | none => true
      | some source => source.isPrefixOf e.source.toList) &&
    d.values.all fun v => v == "message".toList || e.values.any fun (name, _) => name.toList == v

/-- The weight of a directive's source: none, or one more than its length. -/
def Directive.sourceWeight (d : Directive) : Nat :=
  match d.source with
  | none => 0
  | some source => source.length + 1

/-- Whether a text comes before another one, character by character. -/
def precedes (v w : List Char) : Bool :=
  v.lex w fun a b => decide (a.toNat < b.toNat)

/-- Whether a directive that comes later takes precedence over another one. -/
def Directive.outweighs (d other : Directive) : Bool :=
  if d.sourceWeight ≠ other.sourceWeight then decide (other.sourceWeight < d.sourceWeight)
  else if d.values.length ≠ other.values.length then decide (other.values.length < d.values.length)
  else !d.values.lex other.values precedes

/-! ## Filters -/

/-- A list of directives, in the order in which they are given. -/
structure Filter where
  directives : List Directive

/-- The filter that shows every event up to a level. -/
def Filter.upTo (level : Level) : Filter :=
  ⟨[{ rank := level.rank }]⟩

/-- The filter with a text, if all its directives have the form of one. -/
def Filter.ofText? (s : String) : Option Filter :=
  (((s.toList.splitOn ',').filter (!·.isEmpty)).mapM Directive.ofText?).map Filter.mk

/-- The directive that decides about an event. -/
def Filter.decisive? (f : Filter) (e : Event) : Option Directive :=
  (f.directives.filter (·.concerns e)).foldl
    (fun best d => match best with
      | none => some d
      | some b => if d.outweighs b then some d else some b)
    none

def Filter.shows (f : Filter) (e : Event) : Bool :=
  match f.decisive? e with
  | none => false
  | some d => decide (e.level.rank ≤ d.rank)

end Ambient.Log

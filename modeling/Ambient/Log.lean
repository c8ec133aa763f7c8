/-!
# Log events

An event has a level, the place that it comes from, a message and named values.
Its line shows the level, the message and the values; in the message the
characters that could steer a terminal are written out.
-/

namespace Ambient.Log

inductive Level where
  | error
  | warn
  | info
  | debug
  | trace
deriving DecidableEq

/-- The levels in order: the smaller the number, the more important. -/
def Level.rank : Level → Nat
  | .error => 1
  | .warn => 2
  | .info => 3
  | .debug => 4
  | .trace => 5

/-- The level at the start of a line, five characters wide. -/
def Level.label : Level → String
  | .error => "ERROR"
  | .warn => " WARN"
  | .info => " INFO"
  | .debug => "DEBUG"
  | .trace => "TRACE"

/-- Something that happened; the values are in their written form. -/
structure Event where
  level : Level
  source : String
  message : String
  values : List (String × String) := []
deriving DecidableEq

def shownChar (c : Char) : List Char :=
  if c = '\x1b' then ['\\', 'x', '1', 'b']
  else if c = '\x07' then ['\\', 'x', '0', '7']
  else if c = '\x08' then ['\\', 'x', '0', '8']
  else if c = '\x0c' then ['\\', 'x', '0', 'c']
  else if c = '\x7f' then ['\\', 'x', '7', 'f']
  else if 0x80 ≤ c.toNat ∧ c.toNat ≤ 0x9f then
    ['\\', 'u', '{'] ++ Nat.toDigits 16 c.toNat ++ ['}']
  else [c]

def Event.line (e : Event) : String :=
  e.level.label ++ " " ++ String.ofList (e.message.toList.flatMap shownChar) ++
    String.join (e.values.map fun v => " " ++ v.1 ++ "=" ++ v.2) ++ "\n"

end Ambient.Log

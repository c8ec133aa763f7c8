import Ambient.Decimal.Shortest
import Ambient.Text.Quoted

/-!
# Why a JSON text is refused, and where

A reader that gives up names a cause and the place: the text it had not read
yet and how many of the following bytes it had looked at.  The place becomes a
line and a column only at the end, from the whole text, so readers never count.
Columns count bytes of UTF-8.

Every wording is in `Cause.message`; everywhere else causes are compared as
values.
-/

namespace Ambient.Json

/-! ## Causes -/

/-- What stood where another kind of value was wanted. -/
inductive Found where
  | null
  | boolean (value : Bool)
  | integer (value : Int)
  | float (value : Float)
  | text (value : List Char)
  | sequence
  | map

inductive Wanted where
  | text
  | boolean
  | sequence
  | map
  | null
  | record (name : String)

inductive Cause where
  | endInValue
  | endInList
  | endInObject
  | endInText
  | expectedColon
  | expectedListComma
  | expectedObjectComma
  | expectedWord
  | expectedValue
  | invalidEscape
  | invalidNumber
  | numberOutOfRange
  | loneSurrogate
  | brokenSurrogatePair
  | keyNotText
  | controlCharacter
  | trailingComma
  | trailingCharacters
  | wrongType (found : Found) (wanted : Wanted)
  | duplicateField (name : String)
  | unknownField (name : String) (known : List String)
  | missingField (name : String)
  | wrongLength (length : Nat) (record : String) (fields : Nat)

/-! ## Wordings -/

/-- A text between grave accents. -/
def ticked (s : String) : String :=
  "\x60" ++ s ++ "\x60"

def Found.message : Found → String
  | .null => "null"
  | .boolean value => "boolean " ++ ticked (if value then "true" else "false")
  | .integer value => "integer " ++ ticked (toString value)
  | .float value => "floating point " ++ ticked (String.ofList (Decimal.floatText value))
  | .text value => "string " ++ String.ofList (Text.quoted value)
  | .sequence => "sequence"
  | .map => "map"

def Wanted.message : Wanted → String
  | .text => "a string"
  | .boolean => "a boolean"
  | .sequence => "a sequence"
  | .map => "a map"
  | .null => "unit"
  | .record name => "struct " ++ name

def Cause.message : Cause → String
  | .endInValue => "EOF while parsing a value"
  | .endInList => "EOF while parsing a list"
  | .endInObject => "EOF while parsing an object"
  | .endInText => "EOF while parsing a string"
  | .expectedColon => "expected " ++ ticked ":"
  | .expectedListComma => "expected " ++ ticked "," ++ " or " ++ ticked "]"
  | .expectedObjectComma => "expected " ++ ticked "," ++ " or " ++ ticked "\x7d"
  | .expectedWord => "expected ident"
  | .expectedValue => "expected value"
  | .invalidEscape => "invalid escape"
  | .invalidNumber => "invalid number"
  | .numberOutOfRange => "number out of range"
  | .loneSurrogate => "lone leading surrogate in hex escape"
  | .brokenSurrogatePair => "unexpected end of hex escape"
  | .keyNotText => "key must be a string"
  | .controlCharacter => "control character (\\u0000-\\u001F) found while parsing a string"
  | .trailingComma => "trailing comma"
  | .trailingCharacters => "trailing characters"
  | .wrongType found wanted => "invalid type: " ++ found.message ++ ", expected " ++ wanted.message
  | .duplicateField name => "duplicate field " ++ ticked name
  | .unknownField name known =>
      "unknown field " ++ ticked name ++ ", expected one of " ++
        ", ".intercalate (known.map ticked)
  | .missingField name => "missing field " ++ ticked name
  | .wrongLength length record fields =>
      "invalid length " ++ toString length ++ ", expected struct " ++ record ++ " with " ++
        toString fields ++ " elements"

/-! ## Places -/

def byteCount (cs : List Char) : Nat :=
  cs.foldl (fun n c => n + c.utf8Size) 0

/-- Why and where a reader gave up: `rest` was unread, and of it `past` bytes
had been looked at. -/
structure Failure where
  cause : Cause
  rest : List Char
  past : Nat

/-- A failure right before the unread text. -/
def Failure.here (cause : Cause) (rest : List Char) : Failure :=
  ⟨cause, rest, 0⟩

/-- A failure `n` bytes into the unread text. -/
def Failure.after (cause : Cause) (rest : List Char) (n : Nat) : Failure :=
  ⟨cause, rest, n⟩

/-- A failure at the next byte of the unread text, or at its end. -/
def Failure.atNext (cause : Cause) (rest : List Char) : Failure :=
  ⟨cause, rest, if rest.isEmpty then 0 else 1⟩

/-- A line, counted from one, and a number of bytes on it. -/
structure Position where
  line : Nat
  column : Nat
deriving DecidableEq

/-- The position `offset` bytes further on than `at`, where the text `cs` follows. -/
def Position.advance (pos : Position) (offset : Nat) : List Char → Position
  | [] => ⟨pos.line, pos.column + offset⟩
  | c :: cs =>
      if offset < c.utf8Size then ⟨pos.line, pos.column + offset⟩
      else if c = '\n' then Position.advance ⟨pos.line + 1, 0⟩ (offset - 1) cs
      else Position.advance ⟨pos.line, pos.column + c.utf8Size⟩ (offset - c.utf8Size) cs

structure Error where
  cause : Cause
  position : Position

/-- The refusal of a whole text by a failure in it. -/
def Failure.within (text : List Char) (f : Failure) : Error where
  cause := f.cause
  position := Position.advance ⟨1, 0⟩ (byteCount text - byteCount f.rest + f.past) text

def Error.message (e : Error) : String :=
  e.cause.message ++ " at line " ++ toString e.position.line ++
    " column " ++ toString e.position.column

end Ambient.Json

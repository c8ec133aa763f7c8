import Ambient.Json.Token

/-!
# Values that nobody asked for

The value of an unknown field is only checked for its form.  Nesting of any
depth is followed with a list of the brackets that are open, innermost first,
instead of recursion into the value.

The rules differ slightly from those of values that are wanted: escapes need
four hexadecimal digits but may be halves of surrogate pairs, numbers may have
any size, and a control character is reported before it is taken.
-/

namespace Ambient.Json

/-! ## Texts and numbers -/

/-- Pass over what follows the backslash of an escape. -/
def skipEscape : Reader Unit
  | [] => .error (.here .endInText [])
  | 'u' :: rest =>
      match hexEscape rest with
      | .error e => .error e
      | .ok (_, rest) => .ok ((), rest)
  | c :: rest =>
      match shortEscape? c with
      | some _ => .ok ((), rest)
      | none => .error (.after .invalidEscape (c :: rest) 1)

/-- Pass over a text literal after its opening quote. -/
def skipTextFrom : List Char → Reader Unit
  | _, [] => .error (.here .endInText [])
  | _, '"' :: rest => .ok ((), rest)
  | [], s => .error (.here .endInText s)
  | _ :: limit, '\\' :: rest =>
      match skipEscape rest with
      | .error e => .error e
      | .ok (_, rest) => skipTextFrom limit rest
  | _ :: limit, c :: rest =>
      if isControl c then .error (.here .controlCharacter (c :: rest))
      else skipTextFrom limit rest

def skipText : Reader Unit := fun s =>
  skipTextFrom s s

/-- Pass over digits, of which there is at least one; its absence is reported
past the character that stands there. -/
def skipDigits : Reader Unit
  | [] => .error (.here .invalidNumber [])
  | c :: rest =>
      if c.isDigit then .ok ((), rest.dropWhile Char.isDigit)
      else .error (.after .invalidNumber (c :: rest) 1)

def skipExponent : Reader Unit := fun s =>
  match s with
  | c :: rest =>
      if c = 'e' ∨ c = 'E' then
        match rest with
        | '+' :: rest => skipDigits rest
        | '-' :: rest => skipDigits rest
        | rest => skipDigits rest
      else .ok ((), s)
  | [] => .ok ((), s)

def skipFraction : Reader Unit
  | '.' :: rest =>
      match rest with
      | c :: rest =>
          if c.isDigit then skipExponent (rest.dropWhile Char.isDigit)
          else .error (.atNext .invalidNumber (c :: rest))
      | [] => .error (.atNext .invalidNumber [])
  | s => skipExponent s

/-- Pass over a number after its sign. -/
def skipUnsigned : Reader Unit
  | '0' :: rest =>
      match rest with
      | c :: _ => if c.isDigit then .error (.atNext .invalidNumber rest) else skipFraction rest
      | [] => skipFraction rest
  | s =>
      match skipDigits s with
      | .error e => .error e
      | .ok (_, rest) => skipFraction rest

/-! ## Nesting -/

inductive Bracket where
  | square
  | curly
deriving DecidableEq

def Bracket.closer : Bracket → Char
  | .square => ']'
  | .curly => '}'

/-- The cause if a text ends inside a bracket. -/
def Bracket.endCause : Bracket → Cause
  | .square => .endInList
  | .curly => .endInObject

/-- The cause if neither a comma nor the closer follows a value in a bracket. -/
def Bracket.commaCause : Bracket → Cause
  | .square => .expectedListComma
  | .curly => .expectedObjectComma

/-- Pass over a value without parts, or over the bracket that opens one with
parts, which is returned. -/
def skipStart : Reader (Option Bracket)
  | [] => .error (.atNext .endInValue [])
  | c :: rest =>
      let alone : Except Failure (Unit × List Char) → Except Failure (Option Bracket × List Char)
        | .error e => .error e
        | .ok (_, rest) => .ok (none, rest)
      if c = 'n' then alone (word ['u', 'l', 'l'] rest)
      else if c = 't' then alone (word ['r', 'u', 'e'] rest)
      else if c = 'f' then alone (word ['a', 'l', 's', 'e'] rest)
      else if c = '"' then alone (skipText rest)
      else if c = '-' then alone (skipUnsigned rest)
      else if c.isDigit then alone (skipUnsigned (c :: rest))
      else if c = '[' then .ok (some .square, rest)
      else if c = '{' then .ok (some .curly, rest)
      else .error (.atNext .expectedValue (c :: rest))

/-- Close brackets as long as closers follow.  The brackets that remain open
are returned, with the text where their next part begins; `comma` tells
whether a part came before, so that a comma has to separate the next one. -/
def settle (comma : Bool) : List Bracket → Reader (List Bracket)
  | [], s => .ok ([], s)
  | b :: outer, s =>
      match skipBlanks s with
      | [] => .error (.atNext b.endCause [])
      | c :: rest =>
          if c = b.closer then settle true outer rest
          else if !comma then .ok (b :: outer, c :: rest)
          else if c = ',' then .ok (b :: outer, rest)
          else .error (.atNext b.commaCause (c :: rest))

/-- Pass over the key and the colon of a part of an object. -/
def skipKey : Reader Unit := fun s =>
  match skipBlanks s with
  | [] => .error (.atNext .endInObject [])
  | '"' :: rest =>
      match skipText rest with
      | .error e => .error e
      | .ok (_, rest) =>
          match skipBlanks rest with
          | [] => .error (.atNext .endInObject [])
          | ':' :: rest => .ok ((), rest)
          | s => .error (.atNext .expectedColon s)
  | s => .error (.atNext .keyNotText s)

/-- Pass over the values that complete the open brackets.  Each round takes at
least one character, which the limit counts. -/
def skipWithin : List Char → List Bracket → Reader Unit
  | [], _, s => .error (.atNext .endInValue s)
  | _ :: limit, opened, s =>
      match skipStart (skipBlanks s) with
      | .error e => .error e
      | .ok (start, rest) =>
          let settled := match start with
            | some b => settle false (b :: opened) rest
            | none => settle true opened rest
          match settled with
          | .error e => .error e
          | .ok ([], rest) => .ok ((), rest)
          | .ok (.square :: outer, rest) => skipWithin limit (.square :: outer) rest
          | .ok (.curly :: outer, rest) =>
              match skipKey rest with
              | .error e => .error e
              | .ok (_, rest) => skipWithin limit (.curly :: outer) rest

/-- Pass over one value of any kind. -/
def skipValue : Reader Unit := fun s =>
  skipWithin s [] s

end Ambient.Json

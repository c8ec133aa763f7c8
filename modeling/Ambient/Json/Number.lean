import Ambient.Decimal.Product
import Ambient.Json.Token

/-!
# Numbers of JSON

A number literal is an integer while it has neither point nor exponent and
fits 64 bits, and a double otherwise.  The first digits are gathered into a
significand below `2 ^ 64`; the digits that no longer fit only move the
exponent.  Minus zero and what is too small for a signed integer are doubles.
-/

namespace Ambient.Json

inductive Number where
  | integer (value : Int)
  | float (value : Float)

/-- `2 ^ 64`, which the gathered digits of a number stay below. -/
def significandLimit : Nat :=
  18446744073709551616

/-- `2 ^ 31`, which the digits of an exponent stay below. -/
def exponentLimit : Nat :=
  2147483648

/-- `2 ^ 63`, the largest magnitude of a negative integer. -/
def negativeLimit : Nat :=
  9223372036854775808

def digitValue (c : Char) : Nat :=
  c.toNat - '0'.toNat

/-- Whether the unread text begins with a decimal digit. -/
def startsWithDigit : List Char → Bool
  | [] => false
  | c :: _ => c.isDigit

/-- Gather digits into a significand as long as it stays below `2 ^ 64`; the
count of gathered digits comes second. -/
def gather (significand count : Nat) : List Char → Nat × Nat × List Char
  | [] => (significand, count, [])
  | c :: rest =>
      if c.isDigit ∧ significand * 10 + digitValue c < significandLimit then
        gather (significand * 10 + digitValue c) (count + 1) rest
      else (significand, count, c :: rest)

/-- The double of a signed product, refused right before the unread text if it
is too large. -/
def float (negative : Bool) (significand : Nat) (exponent : Int) : Reader Number := fun s =>
  match Decimal.product significand.toUInt64 exponent with
  | none => .error (.here .numberOutOfRange s)
  | some f => .ok (.float (if negative then -f else f), s)

/-- Read the further digits of an exponent.  An exponent beyond `2 ^ 31 - 1`
makes the number too large or, if it is negative or the significand is zero,
leaves a zero. -/
def exponentDigits (negative down : Bool) (significand : Nat) (start : Int) (exponent : Nat) :
    Reader Number
  | [] => float negative significand (if down then start - exponent else start + exponent) []
  | c :: rest =>
      if c.isDigit then
        if exponent * 10 + digitValue c < exponentLimit then
          exponentDigits negative down significand start (exponent * 10 + digitValue c) rest
        else if significand ≠ 0 ∧ !down then .error (.here .numberOutOfRange rest)
        else .ok (.float (if negative then -0.0 else 0.0), rest.dropWhile Char.isDigit)
      else float negative significand (if down then start - exponent else start + exponent) (c :: rest)

/-- Read an exponent after its letter and sign; it has at least one digit. -/
def exponentBody (negative down : Bool) (significand : Nat) (start : Int) : Reader Number
  | [] => .error (.here .endInValue [])
  | c :: rest =>
      if c.isDigit then exponentDigits negative down significand start (digitValue c) rest
      else .error (.after .invalidNumber (c :: rest) 1)

/-- Read an exponent after its letter. -/
def exponentPart (negative : Bool) (significand : Nat) (start : Int) : Reader Number
  | '+' :: rest => exponentBody negative false significand start rest
  | '-' :: rest => exponentBody negative true significand start rest
  | s => exponentBody negative false significand start s

/-- Read an optional exponent and finish the double. -/
def floatTail (negative : Bool) (significand : Nat) (exponent : Int) : Reader Number
  | 'e' :: rest => exponentPart negative significand exponent rest
  | 'E' :: rest => exponentPart negative significand exponent rest
  | s => float negative significand exponent s

/-- Read a fraction after its point; it has at least one digit. -/
def fractionPart (negative : Bool) (significand : Nat) (exponent : Int) : Reader Number := fun s =>
  if startsWithDigit s then
    let (significand, count, rest) := gather significand 0 s
    floatTail negative significand (exponent - count) (rest.dropWhile Char.isDigit)
  else .error (.atNext (if s.isEmpty then .endInValue else .invalidNumber) s)

def integerValue (negative : Bool) (significand : Nat) : Number :=
  if !negative then .integer significand
  else if 1 ≤ significand ∧ significand ≤ negativeLimit then .integer (-significand)
  else .float (-significand.toUInt64.toFloat)

/-- Read what follows the integer part, of which `skipped` digits did not fit. -/
def numberTail (negative : Bool) (significand skipped : Nat) : Reader Number
  | '.' :: rest => fractionPart negative significand skipped rest
  | s =>
      match s with
      | 'e' :: _ => floatTail negative significand skipped s
      | 'E' :: _ => floatTail negative significand skipped s
      | _ =>
          if skipped = 0 then .ok (integerValue negative significand, s)
          else float negative significand skipped s

/-- Read a number after its sign.  A leading zero stands alone. -/
def unsigned (negative : Bool) : Reader Number
  | [] => .error (.here .endInValue [])
  | '0' :: rest =>
      if startsWithDigit rest then .error (.atNext .invalidNumber rest)
      else numberTail negative 0 0 rest
  | c :: rest =>
      if c.isDigit then
        let (significand, _, rest) := gather (digitValue c) 0 rest
        let beyond := rest.takeWhile Char.isDigit
        numberTail negative significand beyond.length (rest.dropWhile Char.isDigit)
      else .error (.after .invalidNumber (c :: rest) 1)

def number : Reader Number
  | '-' :: rest => unsigned true rest
  | s => unsigned false s

end Ambient.Json

import Ambient.Calendar
import Ambient.Text.Blank

/-!
# Dates as text

A date is written as year, month and day with `-` between.  A year from 0 to
9999 has four digits; any other has a sign and at least four digits.

Reading allows more: white space before each number, one or two digits for
month and day, up to four digits for a year without sign and any number of
digits for a year with one.
-/

namespace Ambient

open Text

/-! ## Writing -/

/-- The decimal digits of a number, at least `width` of them. -/
def padded (width n : Nat) : List Char :=
  (Nat.toDigits 10 n).leftpad width '0'

def yearText (year : Int) : List Char :=
  if 0 ≤ year ∧ year ≤ 9999 then padded 4 year.toNat
  else (if year < 0 then '-' else '+') :: padded 4 year.natAbs

def Date.text (d : Date) : List Char :=
  yearText d.year ++ ['-'] ++ padded 2 d.month ++ ['-'] ++ padded 2 d.day

/-! ## Reading -/

def ofDigits (ds : List Char) : Nat :=
  ds.foldl (fun n c => n * 10 + (c.toNat - '0'.toNat)) 0

/-- Read a number of at least one and at most `most` digits. -/
def readDigits (most : Nat) (s : List Char) : Option (Nat × List Char) :=
  let ds := (s.takeWhile Char.isDigit).take most
  if ds.isEmpty then none else some (ofDigits ds, s.drop ds.length)

def readYear (s : List Char) : Option (Int × List Char) :=
  match trimStart s with
  | '-' :: rest => (readDigits rest.length rest).map fun (n, rest) => (-(n : Int), rest)
  | '+' :: rest => (readDigits rest.length rest).map fun (n, rest) => ((n : Int), rest)
  | s => (readDigits 4 s).map fun (n, rest) => ((n : Int), rest)

def readPart (s : List Char) : Option (Nat × List Char) :=
  readDigits 2 (trimStart s)

def readHyphen : List Char → Option (List Char)
  | '-' :: rest => some rest
  | _ => none

/-- The date that a text stands for, if it is one and the day exists. -/
def Date.ofText? (s : String) : Option Date := do
  let (year, rest) ← readYear s.toList
  let rest ← readHyphen rest
  let (month, rest) ← readPart rest
  let rest ← readHyphen rest
  let (day, rest) ← readPart rest
  if rest.isEmpty then Date.of? year month day else none

end Ambient

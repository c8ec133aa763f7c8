/-!
# Hexadecimal digits

Numbers are written with lowercase digits; digits of either case are read.
-/

namespace Ambient.Text

def hexDigits (n : Nat) : List Char :=
  Nat.toDigits 16 n

def hexDigit? (c : Char) : Option Nat :=
  if '0' ≤ c ∧ c ≤ '9' then some (c.toNat - '0'.toNat)
  else if 'a' ≤ c ∧ c ≤ 'f' then some (c.toNat - 'a'.toNat + 10)
  else if 'A' ≤ c ∧ c ≤ 'F' then some (c.toNat - 'A'.toNat + 10)
  else none

end Ambient.Text

/-!
# A significand times a power of ten

The double that a decimal reading stands for is computed in double arithmetic:
one multiplication or one division by a power of ten up to `10 ^ 308`, after
as many divisions by `10 ^ 308` as a smaller exponent asks for.  A result
beyond the largest double is refused.
-/

namespace Ambient.Decimal

/-- The double next to `10 ^ k`. -/
def powerOfTen (k : Nat) : Float :=
  Float.ofScientific 1 false k

/-- Divide by `10 ^ 308` until the exponent is at least `-308` or nothing is
left.  Three divisions take any significand below `2 ^ 64` to zero. -/
def descend : Nat → Float → Int → Float
  | 0, f, _ => f
  | n + 1, f, exponent =>
      if f == 0.0 then f
      else if -308 ≤ exponent then f / powerOfTen exponent.natAbs
      else descend n (f / powerOfTen 308) (exponent + 308)

/-- The double of `significand · 10 ^ exponent`, or `none` if it is too large. -/
def product (significand : UInt64) (exponent : Int) : Option Float :=
  let f := significand.toFloat
  if 308 < exponent then
    if f == 0.0 then some f else none
  else if 0 ≤ exponent then
    let g := f * powerOfTen exponent.toNat
    if g.isInf then none else some g
  else some (descend 4 f exponent)

end Ambient.Decimal

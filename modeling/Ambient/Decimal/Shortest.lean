/-!
# The shortest decimal of a binary number

A finite double is `significand · 2 ^ exponent`, and the reals that round to
it form an interval whose ends belong to it exactly when the significand is
even.  The shortest decimal is the point of that interval on the coarsest grid
`10 ^ k` that has one; of two such points the nearer one, and of two equally
near ones the even one.  All tests are comparisons of natural numbers.

The written form is positional while the leading digit stands between the
fifth place after the point and the sixteenth before it, always with a point,
and scientific outside.
-/

namespace Ambient.Decimal

/-! ## The interval of a binary number -/

/-- A positive number `significand · 2 ^ exponent` and whether the next
smaller number is at half the usual distance. -/
structure Binary where
  significand : Nat
  exponent : Int
  closeBelow : Bool

/-- The parts of the magnitude of a double. -/
def Binary.ofBits (bits : UInt64) : Binary :=
  let fraction : Nat := bits.toNat % Nat.pow 2 52
  let field : Nat := bits.toNat / Nat.pow 2 52 % Nat.pow 2 11
  if field = 0 then ⟨fraction, -1074, false⟩
  else ⟨fraction + Nat.pow 2 52, (field : Int) - 1075, fraction == 0 && decide (1 < field)⟩

/-- A decimal `digits · 10 ^ exponent`. -/
structure Scaled where
  digits : Nat
  exponent : Int

/-- The point of the grid `10 ^ k` in the interval of a number, if there is one.
With a common denominator the number is `4 · significand` units, and the
interval reaches two units up and two (or one) down. -/
def Binary.onGrid (b : Binary) (k : Int) : Option Scaled :=
  let unit := Nat.pow 2 (b.exponent - 2).toNat * Nat.pow 10 (-k).toNat
  let mesh := Nat.pow 2 (2 - b.exponent).toNat * Nat.pow 10 k.toNat
  let value := 4 * b.significand * unit
  let low := value - (if b.closeBelow then 1 else 2) * unit
  let high := value + 2 * unit
  let holds := fun c : Nat =>
    if b.significand % 2 = 0 then decide (low ≤ c * mesh) && decide (c * mesh ≤ high)
    else decide (low < c * mesh) && decide (c * mesh < high)
  let below := value / mesh
  let above := below + 1
  match holds below, holds above with
  | false, false => none
  | true, false => some ⟨below, k⟩
  | false, true => some ⟨above, k⟩
  | true, true =>
      let down := value - below * mesh
      let up := above * mesh - value
      if down < up ∨ (down = up ∧ below % 2 = 0) then some ⟨below, k⟩ else some ⟨above, k⟩

/-- The shortest decimal that reads back as the number.  The grids from
`10 ^ 309` down to `10 ^ (-330)` hold one for every finite double. -/
def Binary.shortest (b : Binary) : Scaled :=
  ((List.range 640).findSome? fun (i : Nat) => b.onGrid (309 - (i : Int))).getD ⟨0, 0⟩

/-! ## The written form -/

def zeros (n : Nat) : List Char :=
  List.replicate n '0'

def Scaled.text (d : Scaled) : List Char :=
  let ds := Nat.toDigits 10 d.digits
  let leading := d.exponent + ds.length - 1
  if -5 ≤ leading ∧ leading ≤ 15 then
    if 0 ≤ d.exponent then ds ++ zeros d.exponent.toNat ++ ['.', '0']
    else if 0 ≤ leading then
      ds.take (leading.toNat + 1) ++ ['.'] ++ ds.drop (leading.toNat + 1)
    else ['0', '.'] ++ zeros (-leading - 1).toNat ++ ds
  else
    let mantissa := match ds with
      | [d] => [d]
      | d :: rest => d :: '.' :: rest
      | [] => []
    let sign := if leading < 0 then '-' else '+'
    mantissa ++ ['e', sign] ++ Nat.toDigits 10 leading.natAbs

def floatText (f : Float) : List Char :=
  let bits := f.toBits
  let sign := if bits.toNat / Nat.pow 2 63 = 0 then [] else ['-']
  let b := Binary.ofBits bits
  if b.significand = 0 then sign ++ ['0', '.', '0'] else sign ++ b.shortest.text

end Ambient.Decimal

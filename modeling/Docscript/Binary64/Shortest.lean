import Docscript.Binary64
import Docscript.Text.Numeral

set_option autoImplicit false

namespace Docscript

/-- A positive decimal `coefficient * 10 ^ exponent`. -/
structure Decimal where
  coefficient : Nat
  exponent : Int
  deriving DecidableEq

namespace Decimal

def digits (d : Decimal) : List Char := Text.writeNat d.coefficient

/-- The power of ten of the first digit. -/
def leading (d : Decimal) : Int := d.digits.length - 1 + d.exponent

/-- The digits before and after the point in plain notation. -/
def plainParts (d : Decimal) : List Char × List Char :=
  let digits := d.digits
  if 0 ≤ d.exponent then (digits ++ List.replicate d.exponent.toNat '0', [])
  else
    let places := (-d.exponent).toNat
    if digits.length ≤ places then
      (['0'], List.replicate (places - digits.length) '0' ++ digits)
    else (digits.take (digits.length - places), digits.drop (digits.length - places))

/-- One digit before the point, then an exponent that carries its sign. -/
def scientific (d : Decimal) : List Char :=
  let point := if 1 < d.digits.length then ['.'] else []
  let sign := if d.leading < 0 then '-' else '+'
  d.digits.take 1 ++ point ++ d.digits.drop 1 ++ 'e' :: sign :: Text.writeNat d.leading.natAbs

end Decimal

namespace Binary64

/-- Which of two equally near decimals of the same length is taken. -/
inductive Tie
  | toEven
  | away
  deriving DecidableEq

/-- Of the two multiples of `grid` next to `value` the nearer one that is `acceptable`, as a
multiple. -/
def nearestMultiple? (tie : Tie) (acceptable : Nat → Bool) (value grid : Nat) : Option Nat :=
  let below := value / grid
  let above := below + 1
  let rest := 2 * (value % grid)
  let takeBelow := rest < grid || (rest == grid && tie == .toEven && below % 2 == 0)
  match acceptable (below * grid), acceptable (above * grid) with
  | true, true => some (if takeBelow then below else above)
  | true, false => some below
  | false, true => some above
  | false, false => none

/-- Whether a decimal count of `10 ^ -1074` reads back as the number: it lies in the interval of
the reals nearest to it, whose ends belong to it when the significand is even. All quantities are
taken four times, so that the ends are whole. -/
def readsBack (x : Binary64) (count : Nat) : Bool :=
  let unit := Nat.pow 5 1074 <<< x.shift
  let centre := 4 * x.significand * unit
  let below := if x.significand = 4503599627370496 ∧ x.shift ≠ 0 then unit else 2 * unit
  let low := centre - below
  let high := centre + 2 * unit
  if x.significand % 2 = 0 then low ≤ 4 * count && 4 * count ≤ high
  else low < 4 * count && 4 * count < high

/-- A decimal of the fewest digits that reads back as the magnitude, of those the nearest. -/
def shortest (tie : Tie) (x : Binary64) : Decimal :=
  let count := x.magnitude * Nat.pow 5 1074
  let length := (Text.writeNat count).length
  let candidate := (List.range 17).findSome? fun n =>
    let dropped := length - (n + 1)
    (nearestMultiple? tie (readsBack x) count (Nat.pow 10 dropped)).map fun multiple =>
      if multiple = Nat.pow 10 (n + 1) then (⟨1, length - 1074⟩ : Decimal)
      else ⟨multiple, dropped - 1074⟩
  candidate.getD ⟨count, -1074⟩

end Binary64

end Docscript

import Docscript.Binary64.Scaling
import Docscript.Number

/- An integer is exact as far as 64 bits hold it. A double is made from the digits that 64 bits
hold, as a whole number, which is multiplied or divided by a power of ten; each of these steps is
rounded, so that the result may be a neighbour of the nearest double. -/

set_option autoImplicit false

namespace Docscript

namespace Json

/-- A number as it is written: its sign, the digits before and after the point, the exponent. -/
structure NumberText where
  negative : Bool
  whole : List Char
  fraction : List Char
  exponent : Option Int
  deriving DecidableEq

namespace NumberText

def isInteger (n : NumberText) : Bool := n.fraction.isEmpty && n.exponent.isNone

/-- Appends digits to a whole number as long as 64 bits hold it. The digits that are left over come
second. -/
def appendDigits (n : Nat) : List Char → Nat × List Char
  | [] => (n, [])
  | c :: rest =>
    let longer := 10 * n + (c.toNat - 48)
    if longer < UInt64.size then appendDigits longer rest else (n, c :: rest)

/-- The digits that count as a whole number, and the power of ten that it is to be scaled by. A
digit left over before the point counts as a zero, one left over after the point not at all. -/
def significand (n : NumberText) : Nat × Int :=
  let (whole, surplus) := appendDigits 0 n.whole
  let (digits, unread) := appendDigits whole n.fraction
  (digits, surplus.length - (n.fraction.length - unread.length : Nat) + n.exponent.getD 0)

/-- The double that a number stands for. There is none when it is too large. -/
def double? (n : NumberText) : Option Binary64 :=
  let (digits, power) := n.significand
  ((Binary64.ofQuotient? false digits 1).bind (·.scaleByTen? power)).map fun x =>
    { x with negative := n.negative }

/-- The value of a number: an integer if it has no point and no exponent and 64 bits hold it, with
or without a sign, else a double. Minus zero is a double. -/
def value? (n : NumberText) : Option Number :=
  let size := Nat.ofDigitChars 10 n.whole 0
  if n.isInteger ∧ !n.negative ∧ size < UInt64.size then some (.int size)
  else if n.isInteger ∧ n.negative ∧ 0 < size ∧ size ≤ Int64.minValue.toInt.natAbs then
    some (.int (-size))
  else n.double?.map .double

end NumberText

end Json

end Docscript

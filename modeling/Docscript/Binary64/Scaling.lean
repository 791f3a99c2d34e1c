import Docscript.Binary64

/- Each product and each quotient is rounded, so that a number scaled in several steps may miss the
nearest double by a little. -/

set_option autoImplicit false

namespace Docscript

namespace Binary64

/-- The product, rounded. There is none when it is too large. -/
def mul? (x y : Binary64) : Option Binary64 :=
  ofQuotient? (x.negative != y.negative) (x.magnitude * y.magnitude) (1 <<< 2148)

/-- The quotient by a number other than zero, rounded. -/
def div? (x y : Binary64) : Option Binary64 :=
  ofQuotient? (x.negative != y.negative) x.magnitude y.magnitude

/-- The greatest power of ten that is a double. -/
def maxTenPower : Nat := 308

def tenPower? (power : Nat) : Option Binary64 := ofDecimal? false 1 power

/-- Divides by the greatest power of ten a number of times, as long as there is something left to
divide, and then by the given power. -/
def divideByTen? (power : Nat) (x : Binary64) : Nat → Option Binary64
  | 0 => (tenPower? power).bind x.div?
  | rounds + 1 =>
    if x.isZero then some x
    else ((tenPower? maxTenPower).bind x.div?).bind fun next => divideByTen? power next rounds

/-- Multiplies or divides by a power of ten. Beyond the greatest power there is no product, unless
the number is zero, and the quotient is taken in several steps. -/
def scaleByTen? (x : Binary64) (power : Int) : Option Binary64 :=
  let size := power.natAbs
  if 0 ≤ power then
    if size ≤ maxTenPower then (tenPower? size).bind x.mul?
    else if x.isZero then some x
    else none
  else
    let rounds := (size - 1) / maxTenPower
    divideByTen? (size - maxTenPower * rounds) x rounds

end Binary64

end Docscript

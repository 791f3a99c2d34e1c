/- Magnitudes are whole counts of `2 ^ -1074`, so that order, equality of value and wholeness are
questions about integers. -/

set_option autoImplicit false

namespace Docscript

/-- A sign and a magnitude. The significand has at most 53 binary digits, and fewer only where the
shift cannot be smaller. -/
structure Binary64 where
  negative : Bool
  significand : Nat
  shift : Nat
  significand_lt : significand < 9007199254740992
  normal : 4503599627370496 ≤ significand ∨ shift = 0
  shift_le : shift ≤ 2045
  deriving DecidableEq

namespace Binary64

/-- The zero with the given sign. -/
def zero (negative : Bool) : Binary64 :=
  ⟨negative, 0, 0, by decide, .inr rfl, by decide⟩

/-- The magnitude, counted in `2 ^ -1074`. -/
def magnitude (x : Binary64) : Nat := x.significand <<< x.shift

/-- The value, counted in `2 ^ -1074`. The two zeros have the same value. -/
def scaled (x : Binary64) : Int :=
  if x.negative then -(x.magnitude : Int) else x.magnitude

def isZero (x : Binary64) : Bool := x.significand == 0

/-- Equality of value. -/
def same (x y : Binary64) : Bool := x.scaled == y.scaled

def less (x y : Binary64) : Bool := x.scaled < y.scaled

def atMost (x y : Binary64) : Bool := x.scaled ≤ y.scaled

theorem same_refl (x : Binary64) : x.same x = true := by simp [same]

theorem same_comm (x y : Binary64) : x.same y = y.same x := by
  rw [same, same, Bool.beq_comm]

theorem same_trans {x y z : Binary64} (hxy : x.same y = true) (hyz : y.same z = true) :
    x.same z = true := by
  simp only [same, beq_iff_eq] at *
  exact hxy.trans hyz

/-- The integer that the number is, if it is whole. -/
def toInt? (x : Binary64) : Option Int :=
  if x.magnitude % (1 <<< 1074) = 0 then some (x.scaled / (1 <<< 1074 : Nat)) else none

/-- The number with these parts, if they are in normal form. -/
def ofParts? (negative : Bool) (significand shift : Nat) : Option Binary64 :=
  if parts : significand < 9007199254740992 ∧ (4503599627370496 ≤ significand ∨ shift = 0) ∧
      shift ≤ 2045 then
    some ⟨negative, significand, shift, parts.1, parts.2.1, parts.2.2⟩
  else none

/-- The quotient rounded to the nearest whole number, a half to the even one. -/
def roundQuotient (numerator denominator : Nat) : Nat :=
  let quotient := numerator / denominator
  let rest := 2 * (numerator % denominator)
  if rest < denominator then quotient
  else if denominator < rest then quotient + 1
  else quotient + quotient % 2

/-- The number nearest to a quotient, of two equally near ones the one with the even significand.
There is none when the quotient rounds beyond the largest number. -/
def ofQuotient? (negative : Bool) (numerator denominator : Nat) : Option Binary64 :=
  let counted := numerator <<< 1074
  let shift := (counted / denominator).log2 + 1 - 53
  let significand := roundQuotient counted (denominator <<< shift)
  if significand = 9007199254740992 then ofParts? negative 4503599627370496 (shift + 1)
  else ofParts? negative significand shift

def ofInt? (n : Int) : Option Binary64 := ofQuotient? (n < 0) n.natAbs 1

/-- The number nearest to `coefficient * 10 ^ exponent`.

Far outside the range of the format the power of ten is not computed: a coefficient of `bits + 1`
binary digits lies between `10 ^ (bits / 4)` and `10 ^ (bits / 3 + 1)`, which settles the matter. -/
def ofDecimal? (negative : Bool) (coefficient : Nat) (exponent : Int) : Option Binary64 :=
  let bits : Int := coefficient.log2
  if coefficient = 0 ∨ bits / 3 + 1 + exponent < -330 then some (zero negative)
  else if 310 < bits / 4 + exponent then none
  else if 0 ≤ exponent then ofQuotient? negative (coefficient * Nat.pow 10 exponent.toNat) 1
  else ofQuotient? negative coefficient (Nat.pow 10 (-exponent).toNat)

end Binary64

end Docscript

import Docscript.Binary64.Shortest
import Docscript.Text.Blank

set_option autoImplicit false

namespace Docscript

namespace Binary64

private def sign (x : Binary64) : List Char := if x.negative then ['-'] else []

/-- The text of a double among data: plain notation with at least one place while the first digit
stands for a power of ten from -5 to 15, an exponent otherwise. -/
def text (x : Binary64) : List Char :=
  sign x ++
    if x.isZero then "0.0".toList
    else
      let decimal := x.shortest .toEven
      if -5 ≤ decimal.leading ∧ decimal.leading ≤ 15 then
        let (whole, fraction) := decimal.plainParts
        whole ++ '.' :: (if fraction.isEmpty then ['0'] else fraction)
      else decimal.scientific

/-- The text of a double inside a larger text: all digits of a whole number, plain notation
otherwise. -/
def display (x : Binary64) : List Char :=
  sign x ++
    match x.toInt? with
    | some n => Text.writeNat n.natAbs
    | none =>
      let (whole, fraction) := (x.shortest .away).plainParts
      whole ++ '.' :: fraction

/-- The double nearest to a decimal literal with an optional sign. There is none when the text is
no literal or its value is too large. -/
def ofText? (text : List Char) : Option Binary64 :=
  let (negative, literal) := match text with
    | '-' :: rest => (true, rest)
    | '+' :: rest => (false, rest)
    | rest => (false, rest)
  (Text.readLiteral? literal).bind fun l => ofDecimal? negative l.coefficient l.exponent

end Binary64

/-- A number of a document. Those that come from text are integers of 64 bits, with or without a
sign, and doubles. -/
inductive Number where
  | int (value : Int)
  | double (value : Binary64)
  deriving DecidableEq

namespace Number

/-- An integer that document text can hold. -/
def IntegerRange (n : Int) : Prop := Int64.minValue.toInt ≤ n ∧ n < UInt64.size

instance (n : Int) : Decidable (IntegerRange n) := inferInstanceAs (Decidable (_ ∧ _))

/-- The nearest double; there is none for an integer far beyond the range of document text. -/
def toDouble? : Number → Option Binary64
  | int n => Binary64.ofInt? n
  | double x => some x

/-- Numbers are the same when their nearest doubles have the same value. -/
def same (a b : Number) : Bool :=
  match a.toDouble?, b.toDouble? with
  | some x, some y => x.same y
  | _, _ => a == b

def isNonzero (n : Number) : Bool := n.toDouble?.any (!·.isZero)

/-- The number as a 64-bit integer with a sign, if it is whole and in range. A double is out of
range from a magnitude of 2^63 on, with either sign. -/
def toInt64? : Number → Option Int64
  | int n => Text.int64? n
  | double x => x.toInt?.bind fun n =>
      if n.natAbs < 9223372036854775808 then some (Int64.ofInt n) else none

/-- The text of a number among data. -/
def text : Number → String
  | int n => String.ofList (Text.writeInt n)
  | double x => String.ofList x.text

/-- The text of a number inside a larger text. -/
def display : Number → String
  | int n => String.ofList (Text.writeInt n)
  | double x => String.ofList x.display

/-- Reads a text that is wholly a number, blanks around it aside. Without point and exponent it is
an integer if 64 bits with a sign hold it; all else is the nearest double. -/
def read? (text : List Char) : Option Number :=
  let trimmed := Text.trim text
  if trimmed.any (fun c => c = '.' ∨ c = 'e' ∨ c = 'E') then
    (Binary64.ofText? trimmed).map double
  else match Text.readInt64? trimmed with
    | some n => some (int n.toInt)
    | none => (Binary64.ofText? trimmed).map double

end Number

end Docscript

set_option autoImplicit false

namespace Docscript.Text

/-- The number that a non-empty run of digits stands for. -/
def readNat? (text : List Char) : Option Nat :=
  if !text.isEmpty && text.all Char.isDigit then some (Nat.ofDigitChars 10 text 0) else none

/-- An integer with an optional sign. -/
def readInt? : List Char → Option Int
  | '+' :: digits => (readNat? digits).map Int.ofNat
  | '-' :: digits => (readNat? digits).map fun n => -Int.ofNat n
  | digits => (readNat? digits).map Int.ofNat

/-- An integer as 64 bits with a sign, if they hold it. -/
def int64? (n : Int) : Option Int64 :=
  if Int64.minValue.toInt ≤ n ∧ n ≤ Int64.maxValue.toInt then some (Int64.ofInt n) else none

theorem int64?_eq_some_iff {n : Int} {k : Int64} : int64? n = some k ↔ k.toInt = n := by
  constructor
  · intro h
    rw [int64?] at h
    split at h
    · next bounds =>
      cases h
      have high := bounds.2
      rw [Int64.toInt_maxValue] at high
      exact Int64.toInt_ofInt_of_le (Int64.toInt_minValue ▸ bounds.1) (by omega)
    · cases h
  · intro h
    subst h
    rw [int64?, if_pos ⟨Int64.minValue_le_toInt k, Int64.toInt_le k⟩, Int64.ofInt_toInt]

/-- An integer with an optional sign that fits in 64 bits with a sign. -/
def readInt64? (text : List Char) : Option Int64 := (readInt? text).bind int64?

/-- A position in a list: digits, a leading plus allowed, below 2^64. -/
def readIndex? (text : List Char) : Option Nat :=
  let number := match text with
    | '+' :: digits => readNat? digits
    | digits => readNat? digits
  number.filter (· < UInt64.size)

def writeNat (n : Nat) : List Char := Nat.toDigits 10 n

def writeInt (n : Int) : List Char :=
  if n < 0 then '-' :: writeNat n.natAbs else writeNat n.natAbs

theorem readNat?_writeNat (n : Nat) : readNat? (writeNat n) = some n := by
  have digits : (writeNat n).all Char.isDigit = true :=
    List.all_eq_true.mpr fun c h => Nat.isDigit_of_mem_toDigits (by decide) (by decide) h
  have nonempty : (writeNat n).isEmpty = false := by
    simp [writeNat]
  rw [readNat?, digits, nonempty]
  simp [writeNat, Nat.ofDigitChars_toDigits]

/-- A decimal literal without its sign: the number `coefficient * 10 ^ exponent`. -/
structure Literal where
  coefficient : Nat
  exponent : Int
  deriving DecidableEq

/-- Reads `digits[.digits][e[sign]digits]`. The digits before or after the point may be missing,
not both. -/
def readLiteral? (text : List Char) : Option Literal :=
  let whole := text.takeWhile Char.isDigit
  let afterWhole := text.dropWhile Char.isDigit
  let (fraction, afterFraction) := match afterWhole with
    | '.' :: rest => (rest.takeWhile Char.isDigit, rest.dropWhile Char.isDigit)
    | rest => ([], rest)
  let coefficient := Nat.ofDigitChars 10 (whole ++ fraction) 0
  if whole.isEmpty && fraction.isEmpty then none
  else match afterFraction with
    | [] => some ⟨coefficient, -fraction.length⟩
    | mark :: exponent =>
      if mark = 'e' ∨ mark = 'E' then
        (readInt? exponent).map fun e => ⟨coefficient, e - fraction.length⟩
      else none

end Docscript.Text

import Docscript.Proofs.Text.LetterCase
import Docscript.Text.Numeral
import Mathlib.Data.List.TakeWhile

set_option autoImplicit false

namespace Docscript.Text

variable {c : Char} {m : Nat} {n : Int}

theorem isDigit_of_mem_writeNat (member : c ∈ writeNat m) : c.isDigit = true :=
  Nat.isDigit_of_mem_toDigits (by decide) (by decide) member

theorem writeNat_ne_nil (m : Nat) : writeNat m ≠ [] := by
  simp [writeNat]

theorem writeInt_of_neg (negative : n < 0) : writeInt n = '-' :: writeNat n.natAbs := by
  rw [writeInt, if_pos negative]

theorem writeInt_of_nonneg (positive : 0 ≤ n) : writeInt n = writeNat n.natAbs := by
  rw [writeInt, if_neg (by omega)]

theorem writeInt_ne_nil (n : Int) : writeInt n ≠ [] := by
  rw [writeInt]
  split
  · exact List.cons_ne_nil _ _
  · exact writeNat_ne_nil _

theorem of_mem_writeInt (member : c ∈ writeInt n) : c = '-' ∨ c.isDigit = true := by
  rw [writeInt] at member
  split at member
  · rcases List.mem_cons.mp member with sign | digit
    · exact .inl sign
    · exact .inr (isDigit_of_mem_writeNat digit)
  · exact .inr (isDigit_of_mem_writeNat member)

theorem ne_of_mem_writeInt {other : Char} (member : c ∈ writeInt n) (sign : other ≠ '-')
    (digit : other.isDigit = false) : c ≠ other := by
  rintro rfl
  rcases of_mem_writeInt member with same | isDigit
  · exact sign same
  · rw [digit] at isDigit
    cases isDigit

theorem isBlank_eq_false_of_mem_writeInt (member : c ∈ writeInt n) : isBlank c = false := by
  rcases of_mem_writeInt member with rfl | digit
  · decide
  · exact isBlank_eq_false_of_isDigit digit

theorem readInt?_writeNat (m : Nat) : readInt? (writeNat m) = some (Int.ofNat m) := by
  rw [readInt?, readNat?_writeNat, Option.map_some]
  · intro digits text
    exact absurd (isDigit_of_mem_writeNat (m := m) (c := '+') (by simp [text])) (by decide)
  · intro digits text
    exact absurd (isDigit_of_mem_writeNat (m := m) (c := '-') (by simp [text])) (by decide)

theorem readInt?_writeInt (n : Int) : readInt? (writeInt n) = some n := by
  rcases Int.lt_or_le n 0 with negative | positive
  · have value : -Int.ofNat n.natAbs = n := by
      rw [Int.ofNat_eq_natCast]
      omega
    rw [writeInt_of_neg negative, readInt?, readNat?_writeNat, Option.map_some, value]
  · have value : Int.ofNat n.natAbs = n := by
      rw [Int.ofNat_eq_natCast]
      omega
    rw [writeInt_of_nonneg positive, readInt?_writeNat, value]

theorem readInt64?_writeInt (n : Int) : readInt64? (writeInt n) = int64? n := by
  rw [readInt64?, readInt?_writeInt, Option.bind_some]

theorem of_readNat?_eq_some {text : List Char} (read : readNat? text = some m) :
    text ≠ [] ∧ ∀ c ∈ text, c.isDigit = true := by
  rw [readNat?] at read
  split at read
  · next digits =>
    rw [Bool.and_eq_true, List.all_eq_true] at digits
    exact ⟨by simpa using digits.1, digits.2⟩
  · cases read

theorem of_readInt?_eq_some {text : List Char} (read : readInt? text = some n) :
    text ≠ [] ∧ ∀ c ∈ text, c = '+' ∨ c = '-' ∨ c.isDigit = true := by
  rw [readInt?.eq_def] at read
  split at read <;> obtain ⟨m, digits, -⟩ := Option.map_eq_some_iff.mp read
  · have plain := (of_readNat?_eq_some digits).2
    exact ⟨List.cons_ne_nil _ _, List.forall_mem_cons.mpr ⟨.inl rfl, fun c member =>
      .inr (.inr (plain c member))⟩⟩
  · have plain := (of_readNat?_eq_some digits).2
    exact ⟨List.cons_ne_nil _ _, List.forall_mem_cons.mpr ⟨.inr (.inl rfl), fun c member =>
      .inr (.inr (plain c member))⟩⟩
  · obtain ⟨nonempty, plain⟩ := of_readNat?_eq_some digits
    exact ⟨nonempty, fun c member => .inr (.inr (plain c member))⟩

theorem dotless_of_readInt64? {text : List Char} {k : Int64} (read : readInt64? text = some k) :
    text ≠ [] ∧ '.' ∉ text := by
  obtain ⟨n, integer, -⟩ := Option.bind_eq_some_iff.mp read
  obtain ⟨nonempty, plain⟩ := of_readInt?_eq_some integer
  exact ⟨nonempty, fun member => absurd (plain '.' member) (by decide)⟩

theorem readLiteral?_writeNat (m : Nat) : readLiteral? (writeNat m) = some ⟨m, 0⟩ := by
  have digits : ∀ c ∈ writeNat m, c.isDigit = true := fun c => isDigit_of_mem_writeNat
  have whole : (writeNat m).takeWhile Char.isDigit = writeNat m :=
    List.takeWhile_eq_self_iff.mpr digits
  have rest : (writeNat m).dropWhile Char.isDigit = [] := List.dropWhile_eq_nil_iff.mpr digits
  have value : Nat.ofDigitChars 10 (writeNat m) 0 = m :=
    Nat.ofDigitChars_toDigits (by decide) (by decide)
  simp [readLiteral?, whole, rest, writeNat_ne_nil, value]

end Docscript.Text

import Docscript.Number
import Mathlib.Algebra.Order.Ring.Int

set_option autoImplicit false

namespace Docscript

namespace Binary64

variable {a b d k m n : Nat}

theorem roundQuotient_bounds (n d : Nat) :
    n / d ≤ roundQuotient n d ∧ roundQuotient n d ≤ n / d + 1 := by
  simp only [roundQuotient]
  split
  · omega
  · split <;> omega

theorem roundQuotient_mono (d : Nat) (order : a ≤ b) :
    roundQuotient a d ≤ roundQuotient b d := by
  have lower := (roundQuotient_bounds b d).1
  have upper := (roundQuotient_bounds a d).2
  rcases Nat.lt_or_eq_of_le (Nat.div_le_div_right order : a / d ≤ b / d) with less | same
  · omega
  · have rest : a % d ≤ b % d := by
      have first := Nat.div_add_mod a d
      have second := Nat.div_add_mod b d
      rw [same] at first
      omega
    simp only [roundQuotient, same]
    split_ifs <;> omega

theorem roundQuotient_mul_of_dvd (positive : 0 < d) (divides : d ∣ n) :
    roundQuotient n d * d = n := by
  have rest : 2 * (n % d) < d := by
    rw [Nat.mod_eq_zero_of_dvd divides]
    exact positive
  rw [roundQuotient]
  simp only [if_pos rest]
  exact Nat.div_mul_cancel divides

theorem roundQuotient_mul_mul (positive : 0 < k) (n d : Nat) :
    roundQuotient (n * k) (d * k) = roundQuotient n d := by
  have less : 2 * (n % d * k) < d * k ↔ 2 * (n % d) < d := by
    rw [← Nat.mul_assoc, Nat.mul_lt_mul_right positive]
  have more : d * k < 2 * (n % d * k) ↔ d < 2 * (n % d) := by
    rw [← Nat.mul_assoc, Nat.mul_lt_mul_right positive]
  simp only [roundQuotient, Nat.mul_div_mul_right _ _ positive, Nat.mul_mod_mul_right, less, more]

theorem roundQuotient_near (positive : 0 < d) (n : Nat) :
    2 * (roundQuotient n d * d) ≤ 2 * n + d ∧ 2 * n ≤ 2 * (roundQuotient n d * d) + d := by
  have whole := Nat.div_add_mod n d
  have below := Nat.mod_lt n positive
  rw [Nat.mul_comm] at whole
  have next : (n / d + 1) * d = n / d * d + d := Nat.succ_mul _ _
  simp only [roundQuotient]
  split
  · omega
  · split
    · omega
    · rcases Nat.mod_two_eq_zero_or_one (n / d) with even | odd
      · rw [even, Nat.add_zero]
        omega
      · rw [odd]
        omega

/-- How far the integers with 53 significant binary digits are apart at the size of an integer. -/
def spacing (n : Nat) : Nat := 2 ^ (n.log2 + 1 - 53)

/-- The nearest integer with 53 significant binary digits; of two equally near ones the one with the
even significand. -/
def nearest (n : Nat) : Nat := roundQuotient n (spacing n) * spacing n

theorem spacing_pos (n : Nat) : 0 < spacing n := Nat.two_pow_pos _

theorem log2_lt_of_lt (bound : n < 2 ^ k) (positive : 0 < k) : n.log2 < k := by
  rcases Nat.eq_zero_or_pos n with rfl | more
  · simpa using positive
  · exact (Nat.log2_lt (by omega)).mpr bound

theorem nearest_of_lt (bound : n < 2 ^ 53) : nearest n = n := by
  have digits := log2_lt_of_lt bound (by decide)
  have single : spacing n = 1 := by
    rw [spacing, Nat.sub_eq_zero_of_le digits, Nat.pow_zero]
  rw [nearest, single]
  exact roundQuotient_mul_of_dvd Nat.one_pos (Nat.one_dvd n)

theorem spacing_le (bound : n < 2 ^ 64) : spacing n ≤ 2 ^ 11 := by
  have digits := log2_lt_of_lt bound (by decide)
  exact Nat.pow_le_pow_right (by decide) (by omega)

theorem nearest_near (n : Nat) :
    2 * nearest n ≤ 2 * n + spacing n ∧ 2 * n ≤ 2 * nearest n + spacing n :=
  roundQuotient_near (spacing_pos n) n

theorem log2_mul_two_pow (positive : 0 < m) (k : Nat) : (m * 2 ^ k).log2 = m.log2 + k := by
  have nonzero : m * 2 ^ k ≠ 0 := Nat.mul_ne_zero (by omega) (Nat.ne_of_gt (Nat.two_pow_pos k))
  rw [Nat.log2_eq_iff nonzero]
  constructor
  · rw [Nat.pow_add]
    exact Nat.mul_le_mul_right _ (Nat.log2_self_le (by omega))
  · rw [Nat.add_right_comm, Nat.pow_add]
    exact Nat.mul_lt_mul_of_pos_right Nat.lt_log2_self (Nat.two_pow_pos k)

/-- Rounding does not depend on the power of two that a number is counted in. -/
theorem nearest_mul_two_pow (positive : 0 < m) (k : Nat) :
    nearest (m * 2 ^ k) = nearest m * 2 ^ k := by
  have digits := log2_mul_two_pow positive k
  by_cases long : 53 ≤ m.log2 + 1
  · have wider : spacing (m * 2 ^ k) = spacing m * 2 ^ k := by
      rw [spacing, digits, spacing, ← Nat.pow_add]
      congr 1
      omega
    rw [nearest, wider, roundQuotient_mul_mul (Nat.two_pow_pos k), ← Nat.mul_assoc]
    rfl
  · -- The digits that are left over take up part of the power.
    have kept : nearest m = m := by
      apply nearest_of_lt
      calc m < 2 ^ (m.log2 + 1) := Nat.lt_log2_self
        _ ≤ 2 ^ 53 := Nat.pow_le_pow_right (by decide) (by omega)
    have divides : spacing (m * 2 ^ k) ∣ m * 2 ^ k := by
      rw [spacing, digits]
      exact Nat.dvd_mul_left_of_dvd (Nat.pow_dvd_pow 2 (by omega)) m
    rw [kept, nearest, roundQuotient_mul_of_dvd (spacing_pos _) divides]

theorem nearest_bounds (positive : 0 < n) :
    2 ^ n.log2 ≤ nearest n ∧ nearest n ≤ 2 ^ (n.log2 + 1) := by
  have power (e : Nat) (above : n.log2 ≤ e) :
      roundQuotient (2 ^ e) (spacing n) * spacing n = 2 ^ e :=
    roundQuotient_mul_of_dvd (spacing_pos n) (Nat.pow_dvd_pow 2 (by omega))
  constructor
  · rw [← power n.log2 (Nat.le_refl _), nearest]
    exact Nat.mul_le_mul_right _
      (roundQuotient_mono (spacing n) (Nat.log2_self_le (by omega)))
  · rw [← power (n.log2 + 1) (Nat.le_succ _), nearest]
    exact Nat.mul_le_mul_right _
      (roundQuotient_mono (spacing n) (Nat.le_of_lt Nat.lt_log2_self))

theorem roundQuotient_nearest (positive : 0 < d) (n : Nat) {g : Nat} (divides : d ∣ g) :
    ((roundQuotient n d * d : Nat) - n : Int).natAbs ≤ (g - n : Int).natAbs := by
  obtain ⟨q, rfl⟩ := divides
  have near := roundQuotient_near positive n
  rw [Nat.mul_comm d q]
  rcases Nat.lt_trichotomy q (roundQuotient n d) with below | same | above
  · have step := Nat.mul_le_mul_right d (Nat.succ_le_of_lt below)
    rw [Nat.succ_mul] at step
    omega
  · rw [same]
  · have step := Nat.mul_le_mul_right d (Nat.succ_le_of_lt above)
    rw [Nat.succ_mul] at step
    omega

/-- Of all numbers with 53 significant binary digits none is nearer. Those of the size of the
number, or larger, are multiples of the spacing; the power of two below the number is one, and is
nearer than all smaller numbers. -/
theorem nearest_isNearest (n : Nat) {significand : Nat} (digits : significand < 2 ^ 53) (k : Nat) :
    ((nearest n : Int) - n).natAbs ≤ ((significand * 2 ^ k : Nat) - n : Int).natAbs := by
  rcases Nat.eq_zero_or_pos n with rfl | positive
  · rw [nearest_of_lt (by decide)]
    exact Nat.zero_le _
  · by_cases small : significand * 2 ^ k < 2 ^ n.log2
    · have below : 2 ^ n.log2 ≤ n := Nat.log2_self_le (by omega)
      have power := roundQuotient_nearest (spacing_pos n) n
        (Nat.pow_dvd_pow 2 (by omega : n.log2 + 1 - 53 ≤ n.log2))
      rw [nearest]
      omega
    · have power : n.log2 < 53 + k := by
        apply (Nat.pow_lt_pow_iff_right (by decide : 1 < 2)).mp
        calc 2 ^ n.log2 ≤ significand * 2 ^ k := Nat.le_of_not_lt small
          _ < 2 ^ 53 * 2 ^ k := Nat.mul_lt_mul_of_pos_right digits (Nat.two_pow_pos k)
          _ = 2 ^ (53 + k) := (Nat.pow_add 2 53 k).symm
      exact roundQuotient_nearest (spacing_pos n) n
        (Nat.dvd_mul_left_of_dvd (Nat.pow_dvd_pow 2 (by omega)) significand)

theorem nearest_mono (order : a ≤ b) : nearest a ≤ nearest b := by
  rcases Nat.eq_zero_or_pos a with rfl | positive
  · rw [nearest_of_lt (by decide)]
    exact Nat.zero_le _
  · have digits : a.log2 ≤ b.log2 :=
      (Nat.le_log2 (by omega)).mpr (Nat.le_trans (Nat.log2_self_le (by omega)) order)
    rcases Nat.lt_or_eq_of_le digits with shorter | same
    · calc nearest a ≤ 2 ^ (a.log2 + 1) := (nearest_bounds positive).2
        _ ≤ 2 ^ b.log2 := Nat.pow_le_pow_right (by decide) shorter
        _ ≤ nearest b := (nearest_bounds (by omega)).1
    · have unit : spacing a = spacing b := by rw [spacing, same, spacing]
      rw [nearest, nearest, unit]
      exact Nat.mul_le_mul_right _ (roundQuotient_mono (spacing b) order)

theorem exists_ofParts? (negative : Bool) {significand shift : Nat}
    (fits : significand < 2 ^ 53) (normal : 2 ^ 52 ≤ significand ∨ shift = 0)
    (inRange : shift ≤ 2045) :
    ∃ x, ofParts? negative significand shift = some x ∧ x.negative = negative ∧
      x.magnitude = significand * 2 ^ shift := by
  rw [ofParts?, dif_pos ⟨fits, normal, inRange⟩]
  exact ⟨_, rfl, rfl, Nat.shiftLeft_eq _ _⟩

/-- A count of units within the range of the format is rounded to a double. A significand that
rounds up to one digit more is halved. -/
theorem exists_ofParts?_of_log2 (negative : Bool) {size : Nat} (wide : 52 ≤ size.log2)
    (inRange : size.log2 ≤ 2096) :
    ∃ x, (if roundQuotient size (spacing size) = 9007199254740992 then
        ofParts? negative 4503599627370496 (size.log2 + 1 - 53 + 1)
      else ofParts? negative (roundQuotient size (spacing size)) (size.log2 + 1 - 53)) = some x ∧
      x.negative = negative ∧ x.magnitude = nearest size := by
  have positive : 0 < size := by
    apply Nat.pos_of_ne_zero
    rintro rfl
    rw [Nat.log2_zero] at wide
    omega
  obtain ⟨lower, upper⟩ := nearest_bounds positive
  have rounded : nearest size = roundQuotient size (spacing size) * spacing size := rfl
  obtain ⟨shift, digits⟩ : ∃ shift, size.log2 = shift + 52 := ⟨size.log2 - 52, by omega⟩
  have single : size.log2 + 1 - 53 = shift := by omega
  have unit : spacing size = 2 ^ shift := by rw [spacing, single]
  rw [single, rounded]
  rw [rounded, digits, unit, Nat.add_comm shift, Nat.pow_add] at lower
  rw [rounded, digits, unit, Nat.add_assoc, Nat.add_comm shift, Nat.pow_add] at upper
  have least := Nat.le_of_mul_le_mul_right lower (Nat.two_pow_pos shift)
  have most := Nat.le_of_mul_le_mul_right upper (Nat.two_pow_pos shift)
  rw [unit]
  split
  · next full =>
    obtain ⟨x, made, signed, value⟩ := exists_ofParts? negative
      (by decide : 4503599627370496 < 2 ^ 53) (.inl (by decide)) (by omega : shift + 1 ≤ 2045)
    refine ⟨x, made, signed, ?_⟩
    rw [value, full, Nat.pow_succ, Nat.mul_comm (2 ^ shift), ← Nat.mul_assoc]
  · next other =>
    exact exists_ofParts? negative (by omega : _ < 2 ^ 53) (.inl least) (by omega)

theorem exists_ofQuotient?_one (negative : Bool) (bound : n < 2 ^ 64) :
    ∃ x, ofQuotient? negative n 1 = some x ∧ x.negative = negative ∧
      x.magnitude = nearest n * 2 ^ 1074 := by
  rcases Nat.eq_zero_or_pos n with rfl | positive
  · have nothing (k : Nat) : nearest 0 * k = 0 := by
      rw [nearest_of_lt (by decide), Nat.zero_mul]
    exact ⟨zero negative, rfl, rfl, (nothing _).symm⟩
  · have short := log2_lt_of_lt bound (by decide)
    have counted (k : Nat) : n <<< k = n * 2 ^ k := Nat.shiftLeft_eq n k
    have digits := log2_mul_two_pow positive 1074
    have rounded := nearest_mul_two_pow positive 1074
    rw [← counted] at digits rounded
    obtain ⟨x, made, signed, value⟩ :=
      exists_ofParts?_of_log2 negative (by omega : 52 ≤ (n <<< 1074).log2) (by omega)
    refine ⟨x, ?_, signed, value.trans rounded⟩
    rw [ofQuotient?]
    simp only [Nat.div_one, Nat.one_shiftLeft]
    exact made

/-- The nearest integer with 53 significant binary digits, with the sign of the integer. -/
def nearestInt (n : Int) : Int :=
  if n < 0 then -(nearest n.natAbs : Int) else nearest n.natAbs

theorem natAbs_lt_of_integerRange {n : Int} (range : Number.IntegerRange n) :
    n.natAbs < 2 ^ 64 := by
  obtain ⟨lower, upper⟩ := range
  rw [Int64.toInt_minValue] at lower
  have size : UInt64.size = 2 ^ 64 := rfl
  omega

theorem exists_ofInt? {n : Int} (range : Number.IntegerRange n) :
    ∃ x, ofInt? n = some x ∧ x.scaled = nearestInt n * 2 ^ 1074 := by
  obtain ⟨x, made, signed, value⟩ :=
    exists_ofQuotient?_one (n < 0) (natAbs_lt_of_integerRange range)
  refine ⟨x, made, ?_⟩
  have power (k : Nat) : ((2 ^ k : Nat) : Int) = 2 ^ k := Int.natCast_pow 2 k
  rw [scaled, signed, value, nearestInt, Int.natCast_mul, power]
  by_cases below : n < 0
  · rw [if_pos (decide_eq_true below), if_pos below, Int.neg_mul]
  · rw [if_neg (by simpa using below), if_neg below]

theorem nearestInt_mono {a b : Int} (order : a ≤ b) : nearestInt a ≤ nearestInt b := by
  rw [nearestInt, nearestInt]
  by_cases left : a < 0
  · by_cases right : b < 0
    · have reversed := nearest_mono (by omega : b.natAbs ≤ a.natAbs)
      rw [if_pos left, if_pos right]
      omega
    · rw [if_pos left, if_neg right]
      omega
  · have kept := nearest_mono (by omega : a.natAbs ≤ b.natAbs)
    rw [if_neg left, if_neg (by omega)]
    omega

/-- Rounding keeps an order also backwards between integers that it does not make equal. -/
theorem nearestInt_le_iff {a b : Int} (separate : nearestInt a = nearestInt b → a = b) :
    nearestInt a ≤ nearestInt b ↔ a ≤ b := by
  refine ⟨fun order => ?_, nearestInt_mono⟩
  by_contra above
  have reversed := nearestInt_mono (by omega : b ≤ a)
  exact above (Int.le_of_eq (separate (Int.le_antisymm order reversed)))

theorem nearestInt_of_lt {n : Int} (bound : n.natAbs < 2 ^ 53) : nearestInt n = n := by
  rw [nearestInt, nearest_of_lt bound]
  split <;> omega

theorem nearestInt_near {n : Int} (range : Number.IntegerRange n) :
    nearestInt n - n ≤ 2 ^ 10 ∧ n - nearestInt n ≤ 2 ^ 10 := by
  have step := spacing_le (natAbs_lt_of_integerRange range)
  obtain ⟨above, below⟩ := nearest_near n.natAbs
  rw [nearestInt]
  split <;> omega

theorem nearestInt_isNearest (n : Int) {significand : Int} (digits : significand.natAbs < 2 ^ 53)
    (k : Nat) : (nearestInt n - n).natAbs ≤ (significand * 2 ^ k - n).natAbs := by
  have near := nearest_isNearest n.natAbs digits k
  have zero := nearest_isNearest n.natAbs (by decide : 0 < 2 ^ 53) k
  have size : (significand * 2 ^ k).natAbs = significand.natAbs * 2 ^ k := by
    rw [Int.natAbs_mul, Int.natAbs_pow]
    rfl
  rw [Nat.zero_mul] at zero
  rw [← size] at near
  generalize significand * 2 ^ k = other at *
  rw [nearestInt]
  split <;> omega

theorem natAbs_lt_of_nearestInt {n : Int} (small : (nearestInt n).natAbs < 2 ^ 53) :
    n.natAbs < 2 ^ 53 := by
  have positive : nearestInt (2 ^ 53) = 2 ^ 53 := by decide
  have negative : nearestInt (-2 ^ 53) = -2 ^ 53 := by decide
  by_contra large
  rcases (by omega : 2 ^ 53 ≤ n ∨ n ≤ -2 ^ 53) with above | below
  · have order := nearestInt_mono above
    omega
  · have order := nearestInt_mono below
    omega

/-- Two integers that round to the same double are equal if one of them is small or if they are far
apart. -/
theorem eq_of_nearestInt_eq {m n : Int} (first : Number.IntegerRange m)
    (second : Number.IntegerRange n)
    (apart : m.natAbs < 2 ^ 53 ∨ n.natAbs < 2 ^ 53 ∨ 2 ^ 11 < (m - n).natAbs)
    (same : nearestInt m = nearestInt n) : m = n := by
  have settled {k l : Int} (small : k.natAbs < 2 ^ 53) (equal : nearestInt k = nearestInt l) :
      k = l := by
    have own := nearestInt_of_lt small
    have other : l.natAbs < 2 ^ 53 := natAbs_lt_of_nearestInt (by omega)
    rw [← own, equal, nearestInt_of_lt other]
  rcases apart with small | small | far
  · exact settled small same
  · exact (settled small same.symm).symm
  · have left := nearestInt_near first
    have right := nearestInt_near second
    omega

theorem compare_of_scaled {x y : Binary64} {m n : Int} (first : x.scaled = m * 2 ^ 1074)
    (second : y.scaled = n * 2 ^ 1074) :
    x.same y = (m == n) ∧ x.less y = decide (m < n) ∧ x.atMost y = decide (m ≤ n) := by
  have positive : (0 : Int) < 2 ^ 1074 := Int.pow_pos (by decide)
  rw [same, less, atMost, first, second]
  refine ⟨?_, ?_, ?_⟩
  · rw [Bool.eq_iff_iff, beq_iff_eq, beq_iff_eq, Int.mul_eq_mul_right_iff (Int.ne_of_gt positive)]
  · rw [decide_eq_decide, Int.mul_lt_mul_right positive]
  · rw [decide_eq_decide, Int.mul_le_mul_right positive]

end Binary64

end Docscript

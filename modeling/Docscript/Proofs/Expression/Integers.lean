import Docscript.Proofs.Binary64.Rounding
import Docscript.Proofs.Context.Lookup
import Docscript.Proofs.Expression.Written

set_option autoImplicit false

namespace Docscript

open Binary64 (nearestInt)
open Number (IntegerRange)

namespace Comparison

variable {a b : Int}

/-- Integers of document text are the same number if they round to the same double. -/
theorem strictEq_int (first : IntegerRange a) (second : IntegerRange b) :
    (Value.int a).strictEq (.int b) = (nearestInt a == nearestInt b) := by
  obtain ⟨x, madeX, scaledX⟩ := Binary64.exists_ofInt? first
  obtain ⟨y, madeY, scaledY⟩ := Binary64.exists_ofInt? second
  simp only [Value.int, Value.strictEq, Number.same, Number.toDouble?, madeX, madeY]
  exact (Binary64.compare_of_scaled scaledX scaledY).1

theorem ordered_int (first : IntegerRange a) (second : IntegerRange b)
    {order : Binary64 → Binary64 → Bool} {relation : Int → Int → Bool}
    (counts : ∀ (x y : Binary64) (m n : Int), x.scaled = m * 2 ^ 1074 →
      y.scaled = n * 2 ^ 1074 → order x y = relation m n) :
    ordered order (.value (.int a)) (.value (.int b)) =
      relation (nearestInt a) (nearestInt b) := by
  obtain ⟨x, madeX, scaledX⟩ := Binary64.exists_ofInt? first
  obtain ⟨y, madeY, scaledY⟩ := Binary64.exists_ofInt? second
  simp only [ordered, Resolved.toDouble?, Value.int, Value.toDouble?, Number.toDouble?, madeX,
    madeY]
  exact counts x y _ _ scaledX scaledY

theorem holds_integers {c : Context} {left right : Operand} (first : IntegerRange a)
    (second : IntegerRange b) (onLeft : left.resolveLeft c = .value (.int a))
    (onRight : right.resolveRight c = .value (.int b)) :
    equal.holds c left right = (nearestInt a == nearestInt b) ∧
    notEqual.holds c left right = (nearestInt a != nearestInt b) ∧
    less.holds c left right = decide (nearestInt a < nearestInt b) ∧
    lessOrEqual.holds c left right = decide (nearestInt a ≤ nearestInt b) ∧
    greater.holds c left right = decide (nearestInt b < nearestInt a) ∧
    greaterOrEqual.holds c left right = decide (nearestInt b ≤ nearestInt a) := by
  have same : (Resolved.value (.int a)).equals (.value (.int b)) =
      (nearestInt a == nearestInt b) := by
    rw [Resolved.equals, strictEq_int first second]
  have ordering := @Binary64.compare_of_scaled
  simp only [holds, onLeft, onRight, same]
  exact ⟨trivial, rfl,
    ordered_int first second fun _ _ _ _ p q => (ordering p q).2.1,
    ordered_int first second fun _ _ _ _ p q => (ordering p q).2.2,
    ordered_int first second fun _ _ _ _ p q => (ordering q p).2.1,
    ordered_int first second fun _ _ _ _ p q => (ordering q p).2.2⟩

end Comparison

namespace Operand

/-- A variable that holds an integer is in an array of integers if one of them rounds to the same
double. -/
theorem isIn_integers {c : Context} {x ys : String} {a : Int} {ns : List Int}
    (named : Expression.Variable x) (range : IntegerRange a)
    (ranges : ∀ n ∈ ns, IntegerRange n) (stored : c.get? x = some (.int a))
    (listed : c.get? ys = some (.array (ns.map .int))) :
    (word x).isIn c (word ys) = decide (nearestInt a ∈ ns.map nearestInt) := by
  simp only [isIn, resolveRight_word named stored, listed]
  rw [Bool.eq_iff_iff, decide_eq_true_iff, List.any_map, List.any_eq_true, List.mem_map]
  apply exists_congr
  intro n
  apply and_congr_right
  intro member
  rw [Function.comp_apply, Comparison.strictEq_int (ranges n member) range, beq_iff_eq]

end Operand

namespace Expression

/-- The symbols of comparisons with the relations of integers that they stand for. -/
def integerRelations : List (String × (Int → Int → Bool)) :=
  [("==", fun m n => m == n), ("!=", fun m n => m != n), ("<", fun m n => m < n),
    ("<=", fun m n => m ≤ n), (">", fun m n => n < m), (">=", fun m n => n ≤ m)]

/-- Relations of rounded integers are those of the integers unless different ones become equal. -/
theorem relation_nearestInt {a b : Int} (separate : nearestInt a = nearestInt b → a = b) :
    ∀ entry ∈ integerRelations, entry.2 (nearestInt a) (nearestInt b) = entry.2 a b := by
  have equal : nearestInt a = nearestInt b ↔ a = b := ⟨separate, congrArg nearestInt⟩
  have atMost : nearestInt a ≤ nearestInt b ↔ a ≤ b := Binary64.nearestInt_le_iff separate
  have atLeast : nearestInt b ≤ nearestInt a ↔ b ≤ a :=
    Binary64.nearestInt_le_iff fun same => (separate same.symm).symm
  simp only [integerRelations, List.forall_mem_cons, List.not_mem_nil, false_implies, implies_true,
    and_true]
  refine ⟨?_, ?_, ?_, ?_, ?_, ?_⟩
  · rw [Bool.eq_iff_iff, beq_iff_eq, beq_iff_eq, equal]
  · rw [Bool.eq_iff_iff, bne_iff_ne, bne_iff_ne, ne_eq, equal]
  · rw [decide_eq_decide, ← Int.not_le, atLeast, Int.not_le]
  · rw [decide_eq_decide, atMost]
  · rw [decide_eq_decide, ← Int.not_le, atMost, Int.not_le]
  · rw [decide_eq_decide, atLeast]

theorem evaluate_relations {c : Context} {x y : String} {a b : Int} (left : Variable x)
    (right : Variable y) (first : IntegerRange a) (second : IntegerRange b)
    (onLeft : c.get? x = some (.int a)) (onRight : c.get? y = some (.int b)) :
    ∀ entry ∈ integerRelations,
      evaluate (written x entry.1 y) c = .ok (entry.2 (nearestInt a) (nearestInt b)) := by
  obtain ⟨equal, notEqual, less, lessOrEqual, greater, greaterOrEqual⟩ :=
    Comparison.holds_integers first second (Operand.resolveLeft_word onLeft)
      (Operand.resolveRight_word right onRight)
  simp only [integerRelations, List.forall_mem_cons, List.not_mem_nil, false_implies, implies_true,
    and_true]
  refine ⟨?_, ?_, ?_, ?_, ?_, ?_⟩
  · rw [evaluate_written left right (by decide) rfl, equal]
  · rw [evaluate_written left right (by decide) rfl, notEqual]
  · rw [evaluate_written left right (by decide) rfl, less]
  · rw [evaluate_written left right (by decide) rfl, lessOrEqual]
  · rw [evaluate_written left right (by decide) rfl, greater]
  · rw [evaluate_written left right (by decide) rfl, greaterOrEqual]

theorem evaluate_membership {c : Context} {x ys : String} {a : Int} {ns : List Int}
    (left : Variable x) (right : Variable ys) (range : IntegerRange a)
    (ranges : ∀ n ∈ ns, IntegerRange n) (stored : c.get? x = some (.int a))
    (listed : c.get? ys = some (.array (ns.map .int))) :
    evaluate (written x "in" ys) c = .ok (decide (nearestInt a ∈ ns.map nearestInt)) := by
  rw [evaluate_written_in left.word left.ne_if right.word,
    Operand.isIn_integers left range ranges stored listed]

/-- Comparisons of integer variables, and membership in an array of integers, are those of the
rounded integers. They are exact unless different integers round to the same double, which takes two
of at least `2 ^ 53` in magnitude that are at most `2 ^ 11` apart. No integer with 53 significant
binary digits is nearer to an integer than the one it is rounded to. -/
theorem integer_comparisons {c : Context} {x y ys : String} {a b : Int} {ns : List Int}
    (left : Variable x) (right : Variable y) (list : Variable ys) (aRange : IntegerRange a)
    (bRange : IntegerRange b) (ranges : ∀ n ∈ ns, IntegerRange n)
    (aStored : c.get? x = some (.int a)) (bStored : c.get? y = some (.int b))
    (listed : c.get? ys = some (.array (ns.map .int))) :
    (∀ entry ∈ integerRelations,
      evaluate (written x entry.1 y) c = .ok (entry.2 (nearestInt a) (nearestInt b))) ∧
    ((∀ entry ∈ integerRelations, evaluate (written x entry.1 y) c = .ok (entry.2 a b)) ↔
      (nearestInt a = nearestInt b → a = b)) ∧
    evaluate (written x "in" ys) c = .ok (decide (nearestInt a ∈ ns.map nearestInt)) ∧
    (evaluate (written x "in" ys) c = .ok (decide (a ∈ ns)) ↔
      (nearestInt a ∈ ns.map nearestInt → a ∈ ns)) ∧
    (∀ m n, IntegerRange m → IntegerRange n →
      (m.natAbs < 2 ^ 53 ∨ n.natAbs < 2 ^ 53 ∨ 2 ^ 11 < (m - n).natAbs) →
        nearestInt m = nearestInt n → m = n) ∧
    ∀ n significand : Int, significand.natAbs < 2 ^ 53 → ∀ k : Nat,
      (nearestInt n - n).natAbs ≤ (significand * 2 ^ k - n).natAbs := by
  have compared := evaluate_relations left right aRange bRange aStored bStored
  have among := evaluate_membership left list aRange ranges aStored listed
  refine ⟨compared, ⟨?_, ?_⟩, among, ?_, fun m n first second apart same =>
    Binary64.eq_of_nearestInt_eq first second apart same,
    fun n significand digits k => Binary64.nearestInt_isNearest n digits k⟩
  · intro agreed same
    have rounded := compared ("==", fun m n => m == n) (by simp [integerRelations])
    have equal := agreed ("==", fun m n => m == n) (by simp [integerRelations])
    rw [rounded, Except.ok.injEq] at equal
    exact beq_iff_eq.mp (equal.symm.trans (beq_iff_eq.mpr same))
  · intro separate entry member
    rw [compared entry member, relation_nearestInt separate entry member]
  · rw [among, Except.ok.injEq, decide_eq_decide]
    exact ⟨fun same => same.mp, fun found => ⟨found, List.mem_map_of_mem⟩⟩

/-- Two integers beyond `2 ^ 53` that are two apart. -/
theorem integer_comparisons_of_even_neighbours :
    let a : Int := 9007199254740994
    let b : Int := 9007199254740992
    let c : Context := ⟨[("x", .int a), ("y", .int b), ("ys", .array [.int b])]⟩
    (∀ name ∈ ["x", "y", "ys"], Variable name) ∧ IntegerRange a ∧ IntegerRange b ∧
      c.get? "x" = some (.int a) ∧ c.get? "y" = some (.int b) ∧
      c.get? "ys" = some (.array [.int b]) ∧
      (∀ entry ∈ integerRelations, evaluate (written "x" entry.1 "y") c = .ok (entry.2 a b)) ∧
      evaluate (written "x" "in" "ys") c = .ok false := by
  intro a b c
  have named : ∀ name ∈ ["x", "y", "ys"], Variable name := by
    simp only [List.forall_mem_cons, List.not_mem_nil, false_implies, implies_true, and_true]
    exact ⟨⟨by decide, rfl, by decide, rfl⟩, ⟨by decide, rfl, by decide, rfl⟩,
      ⟨by decide, rfl, by decide, rfl⟩⟩
  have first : IntegerRange a := by decide
  have second : IntegerRange b := by decide
  have x : c.get? "x" = some (.int a) := Context.find?_of_name (by decide) rfl
  have y : c.get? "y" = some (.int b) := Context.find?_of_name (by decide) rfl
  have ys : c.get? "ys" = some (.array ([b].map .int)) := Context.find?_of_name (by decide) rfl
  have apart : nearestInt a ≠ nearestInt b := by decide
  obtain ⟨-, compared, -, among, -⟩ := integer_comparisons (named "x" (by simp))
    (named "y" (by simp)) (named "ys" (by simp)) first second (by simpa using second) x y ys
  have absent : decide (a ∈ [b]) = false := by decide
  refine ⟨named, first, second, x, y, ys, compared.mpr fun same => absurd same apart, ?_⟩
  rw [← absent]
  exact among.mpr fun found => absurd (List.mem_singleton.mp found) apart

/-- Two integers that are compared as equal although they are not. -/
theorem not_forall_integer_comparisons :
    ¬ ∀ (c : Context) (a b : Int), IntegerRange a → IntegerRange b →
      c.get? "x" = some (.int a) → c.get? "y" = some (.int b) →
        ∀ entry ∈ integerRelations, evaluate (written "x" entry.1 "y") c = .ok (entry.2 a b) := by
  intro always
  let a : Int := 9007199254740993
  let b : Int := 9007199254740992
  let c : Context := ⟨[("x", .int a), ("y", .int b)]⟩
  have first : IntegerRange a := by decide
  have second : IntegerRange b := by decide
  have x : c.get? "x" = some (.int a) := Context.find?_of_name (by decide) rfl
  have y : c.get? "y" = some (.int b) := Context.find?_of_name (by decide) rfl
  have claimed := always c a b first second x y ("==", fun m n => m == n)
    (by simp [integerRelations])
  have left : Variable "x" := ⟨by decide, rfl, by decide, rfl⟩
  have right : Variable "y" := ⟨by decide, rfl, by decide, rfl⟩
  have rounded := evaluate_relations left right first second x y ("==", fun m n => m == n)
    (by simp [integerRelations])
  rw [claimed, Except.ok.injEq] at rounded
  exact absurd rounded (by decide)

end Expression

end Docscript

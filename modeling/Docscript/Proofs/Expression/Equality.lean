import Docscript.Proofs.Context.Lookup
import Docscript.Proofs.Expression.Written
import Docscript.Proofs.Value.Equality

set_option autoImplicit false

namespace Docscript

open Value (Equal Reordered)

theorem Resolved.equals_ofVariable {x y : Option Value} :
    (ofVariable x).equals (ofVariable y) = true ↔ Option.Rel Equal x y := by
  cases x with
  | none => cases y with
    | none => exact iff_of_true rfl .none
    | some b => exact iff_of_false Bool.false_ne_true fun related => nomatch related
  | some a => cases y with
    | none => exact iff_of_false Bool.false_ne_true fun related => nomatch related
    | some b =>
      refine ⟨fun equal => .some equal, fun related => ?_⟩
      cases related with
      | some equal => exact equal

namespace Expression

/-- Whether a context makes the comparison `x == y` true. -/
def equates (c : Context) (x y : String) : Bool := eval c (.compare (.word x) .equal (.word y))

variable {c : Context} {x y z : String}

theorem equates_iff (left : Named x) (right : Named y) :
    equates c x y = true ↔ Option.Rel Equal (c.get? x) (c.get? y) := by
  rw [equates, eval, Comparison.holds, Operand.resolveLeft_named left,
    Operand.resolveRight_named right, Resolved.equals_ofVariable]

theorem equates_equivalence (unique : c.toValue.UniqueKeys) :
    Equivalence fun x y : {name : String // Named name} => equates c x.1 y.1 = true where
  refl x := (equates_iff x.2 x.2).mpr <| Value.rel_refl fun _ found =>
    Value.equal_refl (Context.uniqueKeys_of_find? unique found)
  symm := by
    intro x y equal
    rw [equates_iff y.2 x.2]
    refine Value.rel_symm ((equates_iff x.2 y.2).mp equal) fun _ _ first second => ?_
    exact Value.equal_symm (Context.uniqueKeys_of_find? unique first)
      (Context.uniqueKeys_of_find? unique second)
  trans := by
    intro x y z one other
    rw [equates_iff x.2 z.2]
    refine Value.rel_trans ((equates_iff x.2 y.2).mp one) ((equates_iff y.2 z.2).mp other) ?_
    intro _ _ _ first second third
    exact Value.equal_trans (Context.uniqueKeys_of_find? unique first)
      (Context.uniqueKeys_of_find? unique second) (Context.uniqueKeys_of_find? unique third)

/-- The two texts of an equality. Without `if` in front it does not start with the word `if`. -/
theorem evaluate_equality (left : Word x) (right : Word y) :
    evaluate ("if " ++ written x "==" y) c = .ok (equates c x y) ∧
    (x ≠ "if" → evaluate (written x "==" y) c = .ok (equates c x y)) := by
  have bare : Token.Bare "==".toList := by decide
  have formed : ofTokens [.word x, Token.ofWord "==", .word y] =
      .ok (.compare (.word x) .equal (.word y)) := rfl
  constructor
  · rw [evaluate, parse_if_written left right bare formed]
    rfl
  · intro unlike
    rw [evaluate, parse_written left unlike right bare formed]
    rfl

/-- Strict equality is an equivalence of the values without repeated keys and does not depend on the
order of keys, at no depth. So in every context of such values `==` is an equivalence of the names
that are neither literals nor numbers, whether they have a variable or not. -/
theorem equality_is_equivalence :
    Equivalence (fun a b : {value : Value // value.UniqueKeys} => a.1.strictEq b.1 = true) ∧
    (∀ a b a' b' : Value, a.UniqueKeys → b.UniqueKeys → Reordered a a' → Reordered b b' →
      a'.strictEq b' = a.strictEq b) ∧
    ∀ c : Context, c.toValue.UniqueKeys →
      Equivalence (fun x y : {name : String // Named name} => equates c x.1 y.1 = true) ∧
      ∀ x y, Word x → Word y →
        evaluate ("if " ++ written x "==" y) c = .ok (equates c x y) ∧
        (x ≠ "if" → evaluate (written x "==" y) c = .ok (equates c x y)) :=
  ⟨Value.equal_equivalence, fun _ _ _ _ => Value.strictEq_of_reordered,
    fun _ unique => ⟨equates_equivalence unique, fun _ _ => evaluate_equality⟩⟩

/-- Three objects with their keys in different orders, at two depths, and two absent names. -/
theorem equality_is_equivalence_of_turned_objects :
    let inner : Value := .object [("k", .int 1), ("l", .null)]
    let turned : Value := .object [("l", .null), ("k", .int 1)]
    let p : Value := .object [("a", .array [inner]), ("b", .bool true)]
    let q : Value := .object [("b", .bool true), ("a", .array [inner])]
    let r : Value := .object [("b", .bool true), ("a", .array [turned])]
    let c : Context := ⟨[("p", p), ("q", q), ("r", r)]⟩
    c.toValue.UniqueKeys ∧ Reordered p r ∧
      (∀ name ∈ ["p", "q", "r", "s", "t"], Word name ∧ Named name) ∧
      evaluate (written "p" "==" "r") c = .ok true ∧
      evaluate (written "r" "==" "p") c = .ok true ∧
      evaluate (written "s" "==" "t") c = .ok true ∧
      evaluate (written "t" "==" "s") c = .ok true := by
  intro inner turned p q r c
  obtain ⟨values, ordered, names⟩ := equality_is_equivalence
  have unique : c.toValue.UniqueKeys := by
    simp [c, p, q, r, inner, turned, Context.toValue, Value.int, Value.UniqueKeys,
      Value.UniqueKeysEntries, Value.UniqueKeysItems, Entries.keys]
  have uniqueP : p.UniqueKeys :=
    Value.inherited_uniqueKeys.entry c.entries unique ("p", p) (by simp [c])
  have turns : Reordered p r := by
    have outer : Reordered p q := .entries (List.Perm.swap _ _ _)
    have within : Reordered inner turned := .entries (List.Perm.swap _ _ _)
    exact .trans outer (.value [("b", .bool true)] "a" (.item [] within []) [])
  obtain ⟨equivalence, texts⟩ := names c unique
  have named : ∀ name ∈ ["p", "q", "r", "s", "t"], Word name ∧ Named name := by
    simp only [List.forall_mem_cons, List.not_mem_nil, false_implies, implies_true, and_true]
    exact ⟨⟨⟨by decide, rfl⟩, by decide, rfl⟩, ⟨⟨by decide, rfl⟩, by decide, rfl⟩,
      ⟨⟨by decide, rfl⟩, by decide, rfl⟩, ⟨⟨by decide, rfl⟩, by decide, rfl⟩,
      ⟨by decide, rfl⟩, by decide, rfl⟩
  obtain ⟨wordP, nameP⟩ := named "p" (by simp)
  obtain ⟨wordR, nameR⟩ := named "r" (by simp)
  obtain ⟨wordS, nameS⟩ := named "s" (by simp)
  obtain ⟨wordT, nameT⟩ := named "t" (by simp)
  have same : p.strictEq r = true :=
    (ordered p p p r uniqueP uniqueP (.refl p) turns).trans (values.refl ⟨p, uniqueP⟩)
  have foundP : c.get? "p" = some p := Context.find?_of_name (by decide) rfl
  have foundR : c.get? "r" = some r := Context.find?_of_name (by decide) rfl
  have absentS : c.get? "s" = none := by
    rw [Context.get?, Context.find?]
    rfl
  have absentT : c.get? "t" = none := by
    rw [Context.get?, Context.find?]
    rfl
  have present : equates c "p" "r" = true := by
    rw [equates_iff nameP nameR, foundP, foundR]
    exact .some same
  have absent : equates c "s" "t" = true := by
    rw [equates_iff nameS nameT, absentS, absentT]
    exact .none
  have presentBack := equivalence.symm (x := ⟨"p", nameP⟩) (y := ⟨"r", nameR⟩) present
  have absentBack := equivalence.symm (x := ⟨"s", nameS⟩) (y := ⟨"t", nameT⟩) absent
  refine ⟨unique, turns, named, ?_, ?_, ?_, ?_⟩
  · rw [(texts "p" "r" wordP wordR).2 (by decide), present]
  · rw [(texts "r" "p" wordR wordP).2 (by decide), presentBack]
  · rw [(texts "s" "t" wordS wordT).2 (by decide), absent]
  · rw [(texts "t" "s" wordT wordS).2 (by decide), absentBack]

end Expression

end Docscript

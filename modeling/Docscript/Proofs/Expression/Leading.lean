import Docscript.Proofs.Expression.Parsing

/- What follows the first operand of a condition is nothing, a separator, or a comparison. None of
these starts a condition, so that of a row of tokens and the row after its first operand at most one
is a condition. -/

set_option autoImplicit false

namespace Docscript

namespace Expression

open Grammar

/-- Tokens that go on after an operand. -/
inductive Continues : List Token → Prop
  | alternative (rest : List Token) : Continues (.orWord :: rest)
  | addition (rest : List Token) : Continues (.andWord :: rest)
  | compared {operator : List Token} {found : Comparison} (compares : Operator operator found)
      (rest : List Token) : Continues (operator ++ rest)

variable {token : Token} {read : Operand} {tokens : List Token} {expression : Expression}

/-- A condition ends after its first operand or goes on. The operand is a condition by itself; if
nothing went on after it, the parser would take it and leave the rest. -/
theorem eq_nil_or_continues (reads : OperandToken token read)
    (parsed : ofTokens (token :: tokens) = .ok expression) : tokens = [] ∨ Continues tokens := by
  cases next : tokens.head? with
  | none => exact .inl (List.head?_eq_none_iff.mp next)
  | some first =>
    obtain ⟨rest, rfl⟩ := List.head?_eq_some_iff.mp next
    by_cases alternative : first = .orWord
    · exact .inr (alternative ▸ .alternative rest)
    by_cases addition : first = .andWord
    · exact .inr (addition ▸ .addition rest)
    cases compares : comparison? (first :: rest) with
    | some pair =>
      obtain ⟨operator, whole, stands⟩ := comparison?_eq_some compares
      exact .inr (whole ▸ .compared stands pair.2)
    | none =>
      have ends : EndsDisjunction (first :: rest) :=
        ⟨by simpa using alternative, by simpa using addition, compares⟩
      have alone : Disjunction Primary [token] (.truthy read) :=
        .alone (.alone (.plain (.compared (.lone reads))))
      have taken := complete_disjunction
        (complete_primary (token :: first :: rest).length) Primary.starts alone (by simp) ends
      rw [ofTokens, List.isEmpty_cons] at parsed
      rw [List.singleton_append] at taken
      rw [taken] at parsed
      cases parsed

theorem chain_of_error {separator : Token} {item : Parser Expression} {fault : ExpressionFault}
    (failed : item tokens = .error fault) (rounds : Nat) :
    chain separator item rounds tokens = .error fault := by
  cases rounds <;> rw [chain, failed]

theorem joined_of_error (wrap : List Expression → Expression) {separator : Token}
    {item : Parser Expression} {fault : ExpressionFault} (failed : item tokens = .error fault) :
    joined wrap separator item tokens = .error fault := by
  rw [joined, chain_of_error failed]

theorem negations_of_operand_error {first : Token} {rest : List Token} {fault : ExpressionFault}
    (depth : Nat) (failed : operand (first :: rest) = .error fault) (group : first ≠ .leftParen)
    (negated : first ≠ .notWord) :
    negations (primary depth) (first :: rest) = .error fault := by
  rw [negations, primary_eq_comparison depth rest group, comparison, failed]
  rintro _ same
  cases same
  exact negated rfl

theorem ofTokens_of_continues (continues : Continues tokens) :
    ∃ fault, ofTokens tokens = .error fault := by
  have failed : tokens ≠ [] ∧
      ∃ fault, negations (primary tokens.length) tokens = .error fault := by
    cases continues with
    | alternative rest =>
      exact ⟨by simp, _, negations_of_operand_error _ rfl (by simp) (by simp)⟩
    | addition rest =>
      exact ⟨by simp, _, negations_of_operand_error _ rfl (by simp) (by simp)⟩
    | compared compares rest =>
      cases compares with
      | isNotIn =>
        have unread : operand (.inWord :: rest) = .error (.missingOperand (some .inWord)) := rfl
        refine ⟨by simp, .missingOperand (some .inWord), ?_⟩
        rw [List.cons_append, List.singleton_append, negations,
          negations_of_operand_error _ unread (by simp) (by simp)]
      | _ => exact ⟨by simp, _, negations_of_operand_error _ rfl (by simp) (by simp)⟩
  obtain ⟨nonempty, fault, first⟩ := failed
  have whole : disjunction (primary tokens.length) tokens = .error fault :=
    joined_of_error .any (joined_of_error .all first)
  exact ⟨fault, by rw [ofTokens, if_neg (by simpa using nonempty), whole]⟩

/-- A row of tokens and the row after its first operand are not both conditions. -/
theorem not_ok_after_operand (reads : OperandToken token read)
    (parsed : ofTokens (token :: tokens) = .ok expression) :
    ∃ fault, ofTokens tokens = .error fault := by
  rcases eq_nil_or_continues reads parsed with rfl | continues
  · exact ⟨.empty, rfl⟩
  · exact ofTokens_of_continues continues

end Expression

end Docscript

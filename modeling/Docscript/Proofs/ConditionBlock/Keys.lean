import Docscript.Proofs.ConditionBlock.Selection
import Docscript.Proofs.Expression.Leading
import Docscript.Proofs.Expression.Scanning

/- A branch is tested by the expression that its key reads as, without a leading `if` of that
expression. The key as a whole text has one `if` taken off. The two differ only where a second `if`
follows the first. -/

set_option autoImplicit false

namespace Docscript

namespace ConditionKey

theorem parse?_eq_ifTrue {key expression : String}
    (read : parse? key = some (.ifTrue expression)) :
    ∃ rest, Text.trim key.toList = "if ".toList ++ rest ∧
      expression.toList = Text.trim rest := by
  simp only [parse?] at read
  split at read
  · cases read
  · split at read
    · split at read <;> cases read
    · next rest _ lead =>
      split at read
      · cases read
      · cases read
        rw [Text.dropLead?, List.isPrefixOf?_eq_some_iff_append_eq] at lead
        exact ⟨rest, lead.symm, String.toList_ofList⟩
    · cases read

theorem parse?_of_lead {key : String} {rest : List Char}
    (lead : Text.trim key.toList = "if ".toList ++ rest) (more : Text.trim rest ≠ []) :
    parse? key = some (.ifTrue (String.ofList (Text.trim rest))) := by
  have found : Text.dropLead? "if " ("if ".toList ++ rest) = some rest :=
    List.isPrefixOf?_eq_some_iff_append_eq.mpr rfl
  have other : Text.dropLead? "else if " ("if ".toList ++ rest) = none := rfl
  have longer : "if ".toList ++ rest ≠ "else".toList := by
    intro same
    cases same
  rw [parse?, lead]
  simp only [if_neg longer, other, found, List.isEmpty_iff, if_neg more]

/-- A trimmed text after `if` is the expression of its key. -/
theorem parse?_if {text : String} (trimmed : Text.trim text.toList = text.toList)
    (nonempty : text ≠ "") : parse? ("if " ++ text) = some (.ifTrue text) := by
  have inhabited : text.toList ≠ [] := by simpa using nonempty
  have lead : Text.trim ("if " ++ text).toList = "if ".toList ++ text.toList := by
    rw [String.toList_append, Text.trim_eq_self_iff, Text.trimEnd_append,
      (Text.trim_eq_self_iff.mp trimmed).2, if_neg inhabited]
    exact ⟨rfl, rfl⟩
  rw [parse?_of_lead lead (by rwa [trimmed]), trimmed, String.ofList_toList]

end ConditionKey

namespace Expression

variable {key expression : String}

theorem withoutIf_key (read : ConditionKey.parse? key = some (.ifTrue expression)) :
    withoutIf key.toList = expression.toList := by
  obtain ⟨rest, lead, text⟩ := ConditionKey.parse?_eq_ifTrue read
  have suffix : rest <:+ Text.trim key.toList := ⟨"if ".toList, lead.symm⟩
  have trimmed : Text.trimEnd rest = rest :=
    Text.trimEnd_of_suffix suffix (Text.trim_eq_self_iff.mp (Text.trim_trim key.toList)).2
  rw [withoutIf_of_lead lead, text, Text.trim_eq_trimStart trimmed]

theorem trim_expression (read : ConditionKey.parse? key = some (.ifTrue expression)) :
    Text.trim expression.toList = expression.toList := by
  obtain ⟨rest, -, text⟩ := ConditionKey.parse?_eq_ifTrue read
  rw [text, Text.trim_trim]

/-- Read as a text of its own, an expression that does not start with `if` has the tokens that its
key has. -/
theorem parse_key_eq_of_not_startsWithIf
    (read : ConditionKey.parse? key = some (.ifTrue expression))
    (other : ¬ StartsWithIf expression.toList) :
    ∃ parsed : Except ExpressionFault Expression,
      parse key = parsed.mapError (.expression key) ∧
      parse expression = parsed.mapError (.expression expression) := by
  refine ⟨_, parse_eq key, ?_⟩
  rw [parse_eq, withoutIf_key read,
    withoutIf_of_not_startsWithIf (trim_expression read) other]

/-- An expression that starts with `if` loses it when it is read as a text of its own, and the key
keeps it. Not both are conditions. -/
theorem not_ok_of_startsWithIf (read : ConditionKey.parse? key = some (.ifTrue expression))
    (starts : StartsWithIf expression.toList) {test : Expression}
    (parsed : parse key = .ok test) : ∃ error, parse expression = .error error := by
  rw [parse_eq] at parsed ⊢
  rw [withoutIf_key read] at parsed
  have trimmed := trim_expression read
  rcases starts with alone | ⟨rest, lead⟩
  · have nothing : withoutIf expression.toList = [] := by rw [alone]; rfl
    rw [nothing]
    exact ⟨_, rfl⟩
  · rw [withoutIf_of_lead (trimmed.trans lead.symm), Token.scan_trimStart]
    have bare : Token.Bare "if".toList := by decide
    have scanned : Token.scan expression.toList = (.word "if" :: ·) <$> Token.scan rest := by
      rw [← lead]
      exact Token.scan_bare_cons bare (by decide : Text.isBlank ' ' = true) rest
    rw [scanned] at parsed
    cases later : Token.scan rest with
    | error fault => exact ⟨_, rfl⟩
    | ok tokens =>
      rw [later] at parsed
      cases whole : ofTokens (.word "if" :: tokens) with
      | error fault =>
        simp only [Except.map, Functor.map, Except.bind, whole] at parsed
        cases parsed
      | ok _ =>
        obtain ⟨fault, failed⟩ := not_ok_after_operand (.word "if") whole
        exact ⟨_, by simp only [Except.bind, failed]; rfl⟩

end Expression

namespace ConditionBlock

variable {β : Type}

/-- Whether a branch alone stands for a truth: the block can be made exactly if there is the truth,
and then it selects its body exactly if that is true. -/
def Means (key : String) (body : β) (c : Context) (truth : Except Error Bool) : Prop :=
  ((∃ error, ofEntries [(key, body)] = .error error) ↔ ∃ error, truth = .error error) ∧
    ∀ block holds, ofEntries [(key, body)] = .ok block → truth = .ok holds →
      block.select c = if holds then some body else none

/-- What the parsing of a text leaves open is the truth of its expression. -/
theorem means_of_parse {key expression source : String}
    (read : ConditionKey.parse? key = some (.ifTrue expression))
    {parsed : Except ExpressionFault Expression}
    (own : Expression.parse expression = parsed.mapError (.expression expression))
    (other : Expression.parse source = parsed.mapError (.expression source)) (body : β)
    (c : Context) : Means key body c (Expression.evaluate source c) := by
  rw [Means, ofEntries_singleton read, Expression.evaluate, own, other]
  cases parsed with
  | error fault =>
    refine ⟨⟨fun _ => ⟨_, rfl⟩, fun _ => ⟨_, rfl⟩⟩, ?_⟩
    intro block holds made
    cases made
  | ok test =>
    constructor
    · constructor <;> rintro ⟨error, failed⟩ <;> cases failed
    · intro block holds made truth
      cases made
      cases truth
      exact select_singleton test body c

/-- A branch alone means what the expression of its key evaluates to. It means what the whole key
evaluates to unless a second `if` follows the first; then one of the two is always an error, and
they agree only where both are. -/
theorem means_evaluate {key expression : String}
    (read : ConditionKey.parse? key = some (.ifTrue expression)) (body : β) (c : Context) :
    Means key body c (Expression.evaluate expression c) ∧
      (Means key body c (Expression.evaluate key c) ↔
        (Expression.StartsWithIf expression.toList →
          (∃ error, ofEntries [(key, body)] = .error error) ∧
            ∃ error, Expression.evaluate key c = .error error)) := by
  refine ⟨means_of_parse read (Expression.parse_eq expression) (Expression.parse_eq expression)
    body c, ?_, ?_⟩
  · intro means starts
    cases evaluated : Expression.evaluate key c with
    | error error => exact ⟨means.1.mpr ⟨error, evaluated⟩, error, rfl⟩
    | ok holds =>
      have made : ¬ ∃ error, ofEntries [(key, body)] = .error error := by
        rw [means.1, evaluated]
        rintro ⟨error, failed⟩
        cases failed
      rw [Expression.evaluate] at evaluated
      cases parsed : Expression.parse key with
      | error error =>
        rw [parsed] at evaluated
        cases evaluated
      | ok test =>
        obtain ⟨error, failed⟩ := Expression.not_ok_of_startsWithIf read starts parsed
        rw [ofEntries_singleton read, failed] at made
        exact absurd ⟨error, rfl⟩ made
  · intro agreed
    by_cases starts : Expression.StartsWithIf expression.toList
    · obtain ⟨unmade, failed⟩ := agreed starts
      refine ⟨iff_of_true unmade failed, fun block holds made _ => ?_⟩
      obtain ⟨error, unmade⟩ := unmade
      rw [unmade] at made
      cases made
    · obtain ⟨parsed, whole, own⟩ := Expression.parse_key_eq_of_not_startsWithIf read starts
      exact means_of_parse read own whole body c

/-- A word that only begins with the letters of `if`. -/
theorem means_evaluate_of_iffy :
    let c : Context := ⟨[("iffy", .bool true)]⟩
    ConditionKey.parse? " if  iffy or x " = some (.ifTrue "iffy or x") ∧
      Means " if  iffy or x " 1 c (Expression.evaluate " if  iffy or x " c) := by
  intro c
  have read : ConditionKey.parse? " if  iffy or x " = some (.ifTrue "iffy or x") := by decide
  have other : ¬ Expression.StartsWithIf "iffy or x".toList := by
    rw [Expression.StartsWithIf]
    decide
  exact ⟨read, ((means_evaluate read 1 c).2.mpr fun starts => absurd starts other)⟩

/-- A variable called `if` can be evaluated but not be the test of a branch. -/
theorem not_forall_means_evaluate :
    ¬ ∀ (key expression : String) (body : Value) (c : Context),
      ConditionKey.parse? key = some (.ifTrue expression) →
        Means key body c (Expression.evaluate key c) := by
  intro always
  have means := (always "if if" "if" .null .empty (by decide)).1
  have unmade : ∃ error, ofEntries [("if if", Value.null)] = .error error := ⟨_, rfl⟩
  obtain ⟨error, failed⟩ := means.mp unmade
  cases failed

end ConditionBlock

end Docscript

import Docscript.Proofs.Expression.Grammar
import Docscript.Proofs.Expression.Scanning

/- One direction shows that what a parser takes is a phrase. The other shows that a phrase is taken
as a whole when what follows cannot continue it; what follows is kept general, so that the phrases
between parentheses and separators need no argument of their own. -/

set_option autoImplicit false

namespace Docscript

namespace Expression

open Grammar

/-- Whatever a parser takes from the front of some tokens is a phrase of the kind. -/
def Sound (parser : Parser Expression) (Kind : Phrase) : Prop :=
  ∀ ⦃tokens expression rest⦄, parser tokens = .ok (expression, rest) →
    ∃ taken, tokens = taken ++ rest ∧ Kind taken expression

theorem operand_eq_ok {tokens rest : List Token} {read : Operand}
    (parsed : operand tokens = .ok (read, rest)) :
    ∃ token, tokens = token :: rest ∧ OperandToken token read := by
  unfold operand at parsed
  split at parsed
  · next text after =>
    cases parsed
    exact ⟨_, rfl, .word text⟩
  · next text after =>
    cases parsed
    exact ⟨_, rfl, .quoted text⟩
  · cases parsed
  · cases parsed

theorem comparison?_eq_some {tokens rest : List Token} {found : Comparison}
    (read : comparison? tokens = some (found, rest)) :
    ∃ operator, tokens = operator ++ rest ∧ Operator operator found := by
  unfold comparison? at read
  split at read
  · cases read
    exact ⟨_, rfl, .notEqual⟩
  · cases read
    exact ⟨_, rfl, .equal⟩
  · cases read
    exact ⟨_, rfl, .isIn⟩
  · cases read
    exact ⟨_, rfl, .isNotIn⟩
  · cases read
    exact ⟨_, rfl, .symbol found⟩
  · cases read

theorem sound_comparison : Sound comparison Compared := by
  intro tokens expression rest parsed
  unfold comparison at parsed
  split at parsed
  · cases parsed
  · next left after leftRead =>
    obtain ⟨first, rfl, leftReads⟩ := operand_eq_ok leftRead
    split at parsed
    · cases parsed
      exact ⟨[first], rfl, .lone leftReads⟩
    · next found tail operatorRead =>
      obtain ⟨operator, rfl, compares⟩ := comparison?_eq_some operatorRead
      split at parsed
      · cases parsed
      · next right final rightRead =>
        obtain ⟨last, rfl, rightReads⟩ := operand_eq_ok rightRead
        cases parsed
        exact ⟨first :: (operator ++ [last]), by simp, .pair leftReads compares rightReads⟩

variable {inner item : Parser Expression} {Inner Item : Phrase} {separator : Token}

theorem sound_negations (sound : Sound inner Inner) : Sound (negations inner) (Negated Inner) := by
  intro tokens
  induction tokens with
  | nil =>
    intro expression rest parsed
    obtain ⟨taken, whole, derived⟩ := sound parsed
    exact ⟨taken, whole, .plain derived⟩
  | cons token tokens ih =>
    intro expression rest parsed
    by_cases negated : token = .notWord
    · subst negated
      rw [negations] at parsed
      split at parsed
      · cases parsed
      · next found after innerParsed =>
        cases parsed
        obtain ⟨taken, rfl, derived⟩ := ih innerParsed
        exact ⟨.notWord :: taken, rfl, .negation derived⟩
    · rw [negations] at parsed
      · obtain ⟨taken, whole, derived⟩ := sound parsed
        exact ⟨taken, whole, .plain derived⟩
      · rintro after same
        cases same
        exact negated rfl

theorem sound_chain (sound : Sound item Item) {rounds : Nat} {tokens rest : List Token}
    {items : List Expression} (parsed : chain separator item rounds tokens = .ok (items, rest)) :
    ∃ taken, tokens = taken ++ rest ∧ Chain separator Item taken items := by
  induction rounds generalizing tokens items with
  | zero =>
    rw [chain] at parsed
    split at parsed
    · cases parsed
    · next first after itemParsed =>
      cases parsed
      obtain ⟨taken, whole, derived⟩ := sound itemParsed
      exact ⟨taken, whole, .last derived⟩
  | succ rounds ih =>
    rw [chain] at parsed
    split at parsed
    · cases parsed
    · next first itemParsed =>
      cases parsed
      obtain ⟨taken, whole, derived⟩ := sound itemParsed
      exact ⟨taken, whole, .last derived⟩
    · next first next after itemParsed =>
      obtain ⟨taken, whole, derived⟩ := sound itemParsed
      split at parsed
      · next same =>
        subst same
        split at parsed
        · cases parsed
        · next others final othersParsed =>
          cases parsed
          obtain ⟨further, rfl, chained⟩ := ih othersParsed
          exact ⟨taken ++ next :: further, by simp [whole], .more derived chained⟩
      · cases parsed
        exact ⟨taken, whole, .last derived⟩

theorem joined_of_chain (wrap : List Expression → Expression) {tokens : List Token}
    {items : List Expression} (chained : Chain separator Item tokens items) :
    Joined wrap separator Item tokens (collapse wrap items) := by
  cases chained with
  | last derived => exact .alone derived
  | more derived others =>
    cases others with
    | last second => exact .several (.more derived (.last second))
    | more second others => exact .several (.more derived (.more second others))

theorem sound_joined (wrap : List Expression → Expression) (sound : Sound item Item) :
    Sound (joined wrap separator item) (Joined wrap separator Item) := by
  intro tokens expression rest parsed
  rw [joined] at parsed
  split at parsed
  · cases parsed
  · next items after chainParsed =>
    cases parsed
    obtain ⟨taken, whole, chained⟩ := sound_chain sound chainParsed
    exact ⟨taken, whole, joined_of_chain wrap chained⟩

theorem sound_disjunction (sound : Sound inner Inner) :
    Sound (disjunction inner) (Disjunction Inner) :=
  sound_joined .any (sound_joined .all (sound_negations sound))

theorem sound_primary (depth : Nat) : Sound (primary depth) Primary := by
  induction depth with
  | zero =>
    intro tokens expression rest parsed
    obtain ⟨taken, whole, derived⟩ := sound_comparison parsed
    exact ⟨taken, whole, .compared derived⟩
  | succ depth ih =>
    intro tokens expression rest parsed
    unfold primary at parsed
    split at parsed
    · next depth' tokens' same =>
      cases same
      split at parsed
      · cases parsed
      · next inner after innerParsed =>
        cases parsed
        obtain ⟨taken, rfl, derived⟩ := sound_disjunction ih innerParsed
        exact ⟨.leftParen :: (taken ++ [.rightParen]), by simp, .group derived⟩
      · cases parsed
    · obtain ⟨taken, whole, derived⟩ := sound_comparison parsed
      exact ⟨taken, whole, .compared derived⟩

/-- A phrase of at most `size` tokens is taken as a whole, if it is followed by what the condition
allows. -/
def Complete (size : Nat) (Follow : List Token → Prop) (parser : Parser Expression)
    (Kind : Phrase) : Prop :=
  ∀ ⦃taken expression rest⦄, Kind taken expression → taken.length ≤ size → Follow rest →
    parser (taken ++ rest) = .ok (expression, rest)

/-- No comparison starts here. -/
def EndsComparison (rest : List Token) : Prop := comparison? rest = none

/-- What may follow a chain: what may follow its items, and no separator. -/
def EndsChain (separator : Token) (Follow : List Token → Prop) (rest : List Token) : Prop :=
  rest.head? ≠ some separator ∧ Follow rest

def EndsConjunction : List Token → Prop := EndsChain .andWord EndsComparison

def EndsDisjunction : List Token → Prop := EndsChain .orWord EndsConjunction

theorem operand_of_operandToken {token : Token} {read : Operand} (reads : OperandToken token read)
    (rest : List Token) : operand (token :: rest) = .ok (read, rest) := by
  cases reads <;> rfl

theorem comparison?_of_operator {operator : List Token} {found : Comparison}
    (compares : Operator operator found) {last : Token} {right : Operand}
    (reads : OperandToken last right) (rest : List Token) :
    comparison? (operator ++ last :: rest) = some (found, last :: rest) := by
  cases compares <;> cases reads <;> rfl

theorem complete_comparison (size : Nat) :
    Complete size EndsComparison comparison Compared := by
  intro taken expression rest derived _ follows
  cases derived with
  | lone reads =>
    have ended : comparison? rest = none := follows
    simp only [comparison, List.cons_append, List.nil_append, operand_of_operandToken reads, ended]
  | @pair first last left right operator found leftReads compares rightReads =>
    have split : first :: (operator ++ [last]) ++ rest = first :: (operator ++ last :: rest) := by
      simp
    simp only [comparison, split, operand_of_operandToken leftReads,
      comparison?_of_operator compares rightReads, operand_of_operandToken rightReads]

theorem complete_negations {size : Nat} {Follow : List Token → Prop}
    (complete : Complete size Follow inner Inner)
    (starts : ∀ taken expression, Inner taken expression →
      ∃ first others, taken = first :: others ∧ first ≠ .notWord) :
    Complete size Follow (negations inner) (Negated Inner) := by
  intro taken expression rest derived fits follows
  induction derived with
  | @plain taken found derived =>
    have parsed := complete derived fits follows
    obtain ⟨first, others, rfl, other⟩ := starts taken found derived
    rw [List.cons_append] at parsed ⊢
    rw [negations, parsed]
    rintro after same
    cases same
    exact other rfl
  | negation derived ih =>
    rw [List.length_cons] at fits
    rw [List.cons_append, negations, ih (by omega)]

theorem complete_chain {size : Nat} {Follow : List Token → Prop}
    (complete : Complete size Follow item Item) (separates : ∀ rest, Follow (separator :: rest))
    {taken rest : List Token} {items : List Expression} {rounds : Nat}
    (chained : Chain separator Item taken items) (fits : taken.length ≤ size)
    (enough : taken.length ≤ rounds) (follows : EndsChain separator Follow rest) :
    chain separator item rounds (taken ++ rest) = .ok (items, rest) := by
  induction chained generalizing rounds with
  | last derived =>
    have parsed := complete derived fits follows.2
    cases rounds with
    | zero => rw [chain, parsed]
    | succ rounds =>
      rw [chain, parsed]
      cases rest with
      | nil => rfl
      | cons next after =>
        have apart : next ≠ separator := by simpa using follows.1
        simp only [if_neg apart]
  | @more tokens others found items derived _ ih =>
    rw [List.length_append, List.length_cons] at fits enough
    obtain ⟨rounds, rfl⟩ := Nat.exists_eq_add_one_of_ne_zero (show rounds ≠ 0 by omega)
    have parsed := complete derived (by omega) (separates (others ++ rest))
    rw [List.append_assoc, List.cons_append, chain, parsed]
    simp only [if_true, ih (by omega) (by omega : others.length ≤ rounds)]

theorem complete_joined (wrap : List Expression → Expression) {size : Nat}
    {Follow : List Token → Prop} (complete : Complete size Follow item Item)
    (separates : ∀ rest, Follow (separator :: rest)) :
    Complete size (EndsChain separator Follow) (joined wrap separator item)
      (Joined wrap separator Item) := by
  intro taken expression rest derived fits follows
  have enough : taken.length ≤ (taken ++ rest).length := by simp
  cases derived with
  | alone derived =>
    rw [joined, complete_chain complete separates (.last derived) fits enough follows]
    rfl
  | several chained =>
    rw [joined, complete_chain complete separates chained fits enough follows]
    rfl

theorem complete_disjunction {size : Nat} (complete : Complete size EndsComparison inner Inner)
    (starts : ∀ taken expression, Inner taken expression →
      ∃ first others, taken = first :: others ∧ first ≠ .notWord) :
    Complete size EndsDisjunction (disjunction inner) (Disjunction Inner) := by
  apply complete_joined .any
  · exact complete_joined .all (complete_negations complete starts) fun rest => rfl
  · exact fun rest => ⟨by simp, rfl⟩

theorem Grammar.Compared.starts {taken : List Token} {expression : Expression}
    (derived : Compared taken expression) :
    ∃ first others read, taken = first :: others ∧ OperandToken first read := by
  cases derived with
  | lone reads => exact ⟨_, [], _, rfl, reads⟩
  | pair leftReads compares rightReads => exact ⟨_, _, _, rfl, leftReads⟩

theorem Grammar.Primary.starts (taken : List Token) (expression : Expression)
    (derived : Primary taken expression) :
    ∃ first others, taken = first :: others ∧ first ≠ .notWord := by
  cases derived with
  | compared derived =>
    obtain ⟨first, others, read, rfl, reads⟩ := derived.starts
    refine ⟨first, others, rfl, ?_⟩
    rintro rfl
    cases reads
  | group derived => exact ⟨.leftParen, _, rfl, by simp⟩

theorem primary_eq_comparison (depth : Nat) {first : Token} (others : List Token)
    (other : first ≠ .leftParen) :
    primary depth (first :: others) = comparison (first :: others) := by
  cases depth with
  | zero => rfl
  | succ depth =>
    rw [primary]
    rintro _ _ _ same
    cases same
    exact other rfl

theorem complete_primary (depth : Nat) : Complete depth EndsComparison (primary depth) Primary := by
  induction depth with
  | zero =>
    intro taken expression rest derived fits _
    obtain ⟨first, others, rfl, _⟩ := Primary.starts taken expression derived
    simp at fits
  | succ depth ih =>
    intro taken expression rest derived fits follows
    cases derived with
    | compared derived =>
      have parsed := complete_comparison (depth + 1) derived fits follows
      obtain ⟨first, others, read, rfl, reads⟩ := derived.starts
      have other : first ≠ .leftParen := by
        rintro rfl
        cases reads
      rw [List.cons_append] at parsed ⊢
      rw [primary_eq_comparison (depth + 1) _ other, parsed]
    | @group tokens _ derived =>
      rw [List.length_cons, List.length_append, List.length_singleton] at fits
      have closes : EndsDisjunction (.rightParen :: rest) := ⟨by simp, by simp, rfl⟩
      have parsed := complete_disjunction ih Primary.starts derived (by omega) closes
      have split : .leftParen :: (tokens ++ [.rightParen]) ++ rest =
          Token.leftParen :: (tokens ++ .rightParen :: rest) := by simp
      rw [split, primary, parsed]

/-- Parentheses never go deeper than there are tokens, so a greater bound on the depth changes
nothing. -/
theorem disjunction_eq_ok_iff (tokens : List Token) (extra : Nat) (expression : Expression) :
    disjunction (primary (tokens.length + extra)) tokens = .ok (expression, []) ↔
      Derives tokens expression := by
  constructor
  · intro parsed
    obtain ⟨taken, whole, derived⟩ := sound_disjunction (sound_primary _) parsed
    rw [whole, List.append_nil]
    exact derived
  · intro derived
    have closes : EndsDisjunction [] := ⟨by simp, by simp, rfl⟩
    have parsed := complete_disjunction (complete_primary (tokens.length + extra)) Primary.starts
      derived (by omega) closes
    rwa [List.append_nil] at parsed

theorem ofTokens_eq_ok_iff (tokens : List Token) (expression : Expression) :
    ofTokens tokens = .ok expression ↔ Derives tokens expression := by
  rw [← disjunction_eq_ok_iff tokens 0, Nat.add_zero]
  cases tokens with
  | nil =>
    constructor
    · intro parsed
      cases parsed
    · intro parsed
      cases parsed
  | cons first others =>
    rw [ofTokens, List.isEmpty_cons]
    constructor
    · intro parsed
      split at parsed
      · next empty => cases empty
      · split at parsed
        · cases parsed
        · next found whole =>
          cases parsed
          exact whole
        · cases parsed
    · intro parsed
      simp only [parsed, Bool.false_eq_true, if_false]

/-- The parser takes exactly the rows of tokens that the grammar derives, with the expression it
derives, of which there is one at most; every other row is an error of syntax. -/
theorem parses_iff_derives (tokens : List Token) :
    (∀ extra expression,
      disjunction (primary (tokens.length + extra)) tokens = .ok (expression, []) ↔
        Derives tokens expression) ∧
    (∀ first second, Derives tokens first → Derives tokens second → first = second) ∧
    (∀ source, Token.scan (withoutIf source.toList) = .ok tokens →
      ∀ expression, parse source = .ok expression ↔ Derives tokens expression) ∧
    ((∀ expression, ¬ Derives tokens expression) →
      ∃ fault, ofTokens tokens = .error fault ∧
        ∀ source, Token.scan (withoutIf source.toList) = .ok tokens →
          parse source = .error (.expression source fault) ∧
            (Error.expression source fault).code = "STENCIL_E_EXPR_SYNTAX") := by
  refine ⟨disjunction_eq_ok_iff tokens, ?_, ?_, ?_⟩
  · intro first second one other
    rw [← ofTokens_eq_ok_iff] at one other
    rw [one] at other
    cases other
    rfl
  · intro source scanned expression
    rw [parse_of_scan scanned, ← ofTokens_eq_ok_iff]
    cases ofTokens tokens with
    | error fault => constructor <;> intro parsed <;> cases parsed
    | ok found =>
      constructor <;> intro parsed <;> cases parsed <;> rfl
  · intro underivable
    cases parsed : ofTokens tokens with
    | error fault =>
      refine ⟨fault, rfl, fun source scanned => ⟨?_, rfl⟩⟩
      rw [parse_of_scan scanned, parsed]
      rfl
    | ok found => exact absurd ((ofTokens_eq_ok_iff tokens found).mp parsed) (underivable found)

/-- `not` binds tighter than `and`, which binds tighter than `or`. -/
theorem parses_iff_derives_by_precedence :
    Derives [.word "a", .orWord, .notWord, .word "b", .andWord, .word "c"]
      (.any [.truthy (.word "a"),
        .all [.negation (.truthy (.word "b")), .truthy (.word "c")]]) :=
  ((parses_iff_derives _).1 0 _).mp rfl

end Expression

end Docscript

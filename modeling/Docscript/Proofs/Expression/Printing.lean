import Docscript.Proofs.Expression.Joints
import Mathlib.Data.List.Forall2

set_option autoImplicit false

namespace Docscript

namespace Token

/-- The words that are no operands. -/
def reserved : List String :=
  ["or", "||", "and", "&&", "not", "is", "in", "==", "!=", ">", ">=", "<", "<="]

theorem ofWord_of_not_reserved {text : String} (other : text ∉ reserved) :
    ofWord text = .word text := by
  unfold ofWord
  split <;> simp [reserved] at other ⊢

/-- A text within quotes of a kind. -/
def escaped (quote : Char) (text : List Char) : List Char :=
  text.flatMap fun c => if c = quote ∨ c = '\\' then ['\\', c] else [c]

theorem escaped_cons (quote c : Char) (text : List Char) :
    escaped quote (c :: text) =
      (if c = quote ∨ c = '\\' then ['\\', c] else [c]) ++ escaped quote text :=
  List.flatMap_cons

theorem scanQuoted_escaped {quote : Char} (plain : quote ≠ '\\') (pending text rest : List Char) :
    scanQuoted quote pending (escaped quote text ++ quote :: rest) =
      (scan rest).map (.quoted (String.ofList (pending.reverse ++ text)) :: ·) := by
  induction text generalizing pending with
  | nil =>
    have ends : escaped quote [] = [] := rfl
    rw [ends, List.nil_append, scanQuoted_cons_of_ne plain, if_pos rfl, List.append_nil]
  | cons c text ih =>
    have taken : (c :: pending).reverse ++ text = pending.reverse ++ c :: text := by simp
    rw [escaped_cons, List.append_assoc]
    split
    · rw [List.cons_append, List.singleton_append, scanQuoted, ih, taken]
    · next kept =>
      rw [not_or] at kept
      rw [List.singleton_append, scanQuoted_cons_of_ne kept.2, if_neg kept.1, ih, taken]

theorem scan_quoted {quote : Char} (quotes : quote = '\'' ∨ quote = '"') (text : List Char) :
    scan (quote :: (escaped quote text ++ [quote])) = .ok [.quoted (String.ofList text)] := by
  have plain : quote ≠ '\\' ∧ Text.isBlank quote = false ∧ quote ≠ '(' ∧ quote ≠ ')' := by
    rcases quotes with rfl | rfl <;> decide
  rw [scan, if_neg (by simp [plain.2.1]), if_neg plain.2.2.1, if_neg plain.2.2.2, if_pos quotes,
    scanQuoted_escaped plain.1, scan]
  rfl

/-- Words that are a token each. -/
abbrev Reads : List (List Char) → List Token → Prop :=
  List.Forall₂ fun word token => scan word = .ok [token]

theorem scan_intercalate {words : List (List Char)} {tokens : List Token}
    (reads : Reads words tokens) : scan ([' '].intercalate words) = .ok tokens := by
  induction reads with
  | nil => rfl
  | @cons word token words tokens first rest ih =>
    cases rest with
    | nil => simpa using first
    | cons second others =>
      have blank : Text.isBlank ' ' = true := by decide
      rw [List.intercalate_cons_cons, List.append_assoc, List.singleton_append,
        scan_append_joint (.inl blank) word [token] first, scan, if_pos blank, ih]
      rfl

end Token

/-- An operand as it is written: a word as it stands, a text within quotes of either kind. -/
inductive Operand.Printed : Operand → List Char → Prop
  | word (text : String) : Printed (.word text) text.toList
  | quoted (text : String) {quote : Char} (quotes : quote = '\'' ∨ quote = '"') :
      Printed (.quoted text) (quote :: (Token.escaped quote text.toList ++ [quote]))

/-- A word can be written if it is read as an operand; a text in quotes can be anything. -/
def Operand.WellFormed : Operand → Prop
  | word text => Token.Bare text.toList ∧ text ∉ Token.reserved
  | quoted _ => True

/-- The words of a comparison. -/
def Comparison.symbols : Comparison → List String
  | equal => ["=="]
  | notEqual => ["!="]
  | greater => [">"]
  | greaterOrEqual => [">="]
  | less => ["<"]
  | lessOrEqual => ["<="]
  | isIn => ["in"]
  | isNotIn => ["not", "in"]

namespace Expression

open Grammar
open Token (Reads)

/-- Words within parentheses. -/
def grouped (words : List (List Char)) : List (List Char) := ['('] :: (words ++ [[')']])

/-- An expression as it is written, word by word. -/
inductive Printed : Expression → List (List Char) → Prop
  | truthy {operand : Operand} {word : List Char} (printed : operand.Printed word) :
      Printed (.truthy operand) (grouped [word])
  | compare {left right : Operand} {first last : List Char} (comparison : Comparison)
      (leftPrinted : left.Printed first) (rightPrinted : right.Printed last) :
      Printed (.compare left comparison right)
        (grouped (first :: (comparison.symbols.map String.toList ++ [last])))
  | negation {inner : Expression} {words : List (List Char)} (printed : Printed inner words) :
      Printed (.negation inner) (grouped ("not".toList :: words))
  | any {items : List Expression} {rows : List (List (List Char))}
      (printed : List.Forall₂ Printed items rows) :
      Printed (.any items) (grouped (["or".toList].intercalate rows))
  | all {items : List Expression} {rows : List (List (List Char))}
      (printed : List.Forall₂ Printed items rows) :
      Printed (.all items) (grouped (["and".toList].intercalate rows))

/-- Expressions that can be written: chains have two items at least, and words are operands. -/
inductive WellFormed : Expression → Prop
  | truthy {operand : Operand} (formed : operand.WellFormed) : WellFormed (.truthy operand)
  | compare {left right : Operand} (comparison : Comparison) (leftFormed : left.WellFormed)
      (rightFormed : right.WellFormed) : WellFormed (.compare left comparison right)
  | negation {inner : Expression} (formed : WellFormed inner) : WellFormed (.negation inner)
  | any {items : List Expression} (several : 2 ≤ items.length)
      (formed : ∀ item ∈ items, WellFormed item) : WellFormed (.any items)
  | all {items : List Expression} (several : 2 ≤ items.length)
      (formed : ∀ item ∈ items, WellFormed item) : WellFormed (.all items)

theorem reads_operand {operand : Operand} {word : List Char} (formed : operand.WellFormed)
    (printed : operand.Printed word) :
    ∃ token, Token.scan word = .ok [token] ∧ OperandToken token operand := by
  cases printed with
  | word text =>
    have scanned := Token.scan_bare formed.1
    rw [String.ofList_toList, Token.ofWord_of_not_reserved formed.2] at scanned
    exact ⟨_, scanned, .word text⟩
  | quoted text quotes =>
    have scanned := Token.scan_quoted quotes text.toList
    rw [String.ofList_toList] at scanned
    exact ⟨_, scanned, .quoted text⟩

theorem reads_symbols (comparison : Comparison) :
    ∃ operator, Reads (comparison.symbols.map String.toList) operator ∧
      Operator operator comparison := by
  cases comparison with
  | isIn => exact ⟨[.inWord], .cons rfl .nil, .isIn⟩
  | isNotIn => exact ⟨[.notWord, .inWord], .cons rfl (.cons rfl .nil), .isNotIn⟩
  | _ => exact ⟨[.comparison _], .cons rfl .nil, .symbol _⟩

theorem reads_grouped {words : List (List Char)} {tokens : List Token}
    (reads : Reads words tokens) :
    Reads (grouped words) (.leftParen :: (tokens ++ [.rightParen])) :=
  .cons rfl (List.rel_append reads (.cons rfl .nil))

/-- Whether what is written reads as a phrase that stands for the expression. -/
def ReadsBack (expression : Expression) : Prop :=
  ∀ words, Printed expression words →
    ∃ tokens, Reads words tokens ∧ Primary tokens expression

theorem chain_of_rows {separator : Token} {word : List Char} {Item : Phrase}
    (between : Token.scan word = .ok [separator])
    (lift : ∀ tokens item, Primary tokens item → Item tokens item) {items : List Expression}
    {rows : List (List (List Char))} (printed : List.Forall₂ Printed items rows)
    (back : ∀ item ∈ items, ReadsBack item) (some : items ≠ []) :
    ∃ tokens, Reads ([word].intercalate rows) tokens ∧ Chain separator Item tokens items := by
  induction printed with
  | nil => exact absurd rfl some
  | @cons item words items rows first rest ih =>
    rw [List.forall_mem_cons] at back
    obtain ⟨tokens, reads, derived⟩ := back.1 words first
    cases rest with
    | nil =>
      rw [List.intercalate_singleton]
      exact ⟨tokens, reads, .last (lift tokens item derived)⟩
    | cons second others =>
      obtain ⟨more, further, chained⟩ := ih back.2 (by simp)
      rw [List.intercalate_cons_cons, List.append_assoc]
      exact ⟨tokens ++ separator :: more, List.rel_append reads (.cons between further),
        .more (lift tokens item derived) chained⟩

theorem collapse_of_two_le (wrap : List Expression → Expression) {items : List Expression}
    (several : 2 ≤ items.length) : collapse wrap items = wrap items := by
  unfold collapse
  split
  · simp at several
  · rfl

theorem joined_of_rows {separator : Token} {word : List Char} {Item : Phrase}
    (wrap : List Expression → Expression) (between : Token.scan word = .ok [separator])
    (lift : ∀ tokens item, Primary tokens item → Item tokens item) {items : List Expression}
    {rows : List (List (List Char))} (printed : List.Forall₂ Printed items rows)
    (back : ∀ item ∈ items, ReadsBack item) (several : 2 ≤ items.length) :
    ∃ tokens, Reads ([word].intercalate rows) tokens ∧
      Joined wrap separator Item tokens (wrap items) := by
  have some : items ≠ [] := List.ne_nil_of_length_pos (by omega)
  obtain ⟨tokens, reads, chained⟩ := chain_of_rows between lift printed back some
  have joined := joined_of_chain wrap chained
  rw [collapse_of_two_le wrap several] at joined
  exact ⟨tokens, reads, joined⟩

theorem readsBack_of_wellFormed {expression : Expression} (formed : WellFormed expression) :
    ReadsBack expression := by
  induction formed with
  | truthy formed =>
    rintro _ ⟨printed⟩
    obtain ⟨token, scanned, reads⟩ := reads_operand formed printed
    have lone : Primary [token] (.truthy _) := .compared (.lone reads)
    exact ⟨_, reads_grouped (.cons scanned .nil), .group (derives_of_primary lone)⟩
  | compare comparison leftFormed rightFormed =>
    intro _ printed
    cases printed with
    | compare _ leftPrinted rightPrinted =>
      obtain ⟨first, leftScanned, leftReads⟩ := reads_operand leftFormed leftPrinted
      obtain ⟨last, rightScanned, rightReads⟩ := reads_operand rightFormed rightPrinted
      obtain ⟨operator, reads, compares⟩ := reads_symbols comparison
      have pair : Primary (first :: (operator ++ [last])) (.compare _ comparison _) :=
        .compared (.pair leftReads compares rightReads)
      exact ⟨_, reads_grouped
        (.cons leftScanned (List.rel_append reads (.cons rightScanned .nil))),
        .group (derives_of_primary pair)⟩
  | negation _ ih =>
    intro _ printed
    cases printed with
    | negation printed =>
      obtain ⟨tokens, reads, derived⟩ := ih _ printed
      exact ⟨_, reads_grouped (.cons rfl reads), .group (derives_not derived)⟩
  | any several _ ih =>
    intro _ printed
    cases printed with
    | any printed =>
      have between : Token.scan "or".toList = .ok [.orWord] := rfl
      have lift (tokens : List Token) (item : Expression) (derived : Primary tokens item) :
          Conjunction Primary tokens item := .alone (.plain derived)
      obtain ⟨tokens, reads, joined⟩ := joined_of_rows .any between lift printed ih several
      exact ⟨_, reads_grouped reads, .group joined⟩
  | all several _ ih =>
    intro _ printed
    cases printed with
    | all printed =>
      have between : Token.scan "and".toList = .ok [.andWord] := rfl
      have lift (tokens : List Token) (item : Expression) (derived : Primary tokens item) :
          Negated Primary tokens item := .plain derived
      obtain ⟨tokens, reads, joined⟩ := joined_of_rows .all between lift printed ih several
      exact ⟨_, reads_grouped reads, .group (.alone joined)⟩

theorem exists_rows {items : List Expression}
    (each : ∀ item ∈ items, ∃ words, Printed item words) :
    ∃ rows, List.Forall₂ Printed items rows := by
  induction items with
  | nil => exact ⟨[], .nil⟩
  | cons item items ih =>
    rw [List.forall_mem_cons] at each
    obtain ⟨words, printed⟩ := each.1
    obtain ⟨rows, others⟩ := ih each.2
    exact ⟨words :: rows, .cons printed others⟩

theorem exists_printed {expression : Expression} (formed : WellFormed expression) :
    ∃ words, Printed expression words := by
  have written (operand : Operand) : ∃ word, operand.Printed word := by
    cases operand with
    | word text => exact ⟨_, .word text⟩
    | quoted text => exact ⟨_, .quoted text (.inl rfl)⟩
  induction formed with
  | @truthy operand _ =>
    obtain ⟨word, printed⟩ := written operand
    exact ⟨_, .truthy printed⟩
  | @compare left right comparison _ _ =>
    obtain ⟨first, leftPrinted⟩ := written left
    obtain ⟨last, rightPrinted⟩ := written right
    exact ⟨_, .compare comparison leftPrinted rightPrinted⟩
  | negation _ ih =>
    obtain ⟨words, printed⟩ := ih
    exact ⟨_, .negation printed⟩
  | any _ _ ih =>
    obtain ⟨rows, printed⟩ := exists_rows ih
    exact ⟨_, .any printed⟩
  | all _ _ ih =>
    obtain ⟨rows, printed⟩ := exists_rows ih
    exact ⟨_, .all printed⟩

/-- What is written starts with a parenthesis. -/
theorem Printed.exists_intercalate {expression : Expression} {words : List (List Char)}
    (printed : Printed expression words) : ∃ rest, [' '].intercalate words = '(' :: rest := by
  have within : ∃ inner, words = grouped inner := by cases printed <;> exact ⟨_, rfl⟩
  obtain ⟨inner, rfl⟩ := within
  obtain ⟨first, others, rest⟩ := List.exists_cons_of_ne_nil
    (List.append_ne_nil_of_right_ne_nil inner (List.cons_ne_nil [')'] []))
  rw [grouped, rest, List.intercalate_cons_cons]
  exact ⟨_, rfl⟩

/-- A well-formed expression can be written, and however the quotes in it are chosen, the text is
parsed as the expression. -/
theorem parse_printed {expression : Expression} (formed : WellFormed expression) :
    (∃ words, Printed expression words) ∧
      ∀ words, Printed expression words →
        parse (String.ofList ([' '].intercalate words)) = .ok expression := by
  refine ⟨exists_printed formed, fun words printed => ?_⟩
  obtain ⟨tokens, reads, derived⟩ := readsBack_of_wellFormed formed words printed
  obtain ⟨rest, text⟩ := printed.exists_intercalate
  have whole : (String.ofList ([' '].intercalate words)).toList = [' '].intercalate words :=
    String.toList_ofList
  have scanned := Token.scan_intercalate reads
  have unlike := not_startsWithIf_cons (by decide : Text.isBlank '(' = false) (by decide) rest
  rw [← whole] at scanned
  rw [← text, ← whole] at unlike
  have parsed := parse_of_reads scanned (derives_of_primary derived) unlike "" (by simp)
  rwa [String.empty_append] at parsed

/-- A variable called `if`, and a quoted text with everything in it that could end it. -/
theorem parse_printed_of_quoted :
    let expression : Expression :=
      .any [.negation (.compare (.word "if") .isNotIn (.quoted "it's \\' ) or (")),
        .truthy (.quoted "")]
    WellFormed expression ∧
      parse "( ( not ( if not in 'it\\'s \\\\\\' ) or (' ) ) or ( \"\" ) )" = .ok expression := by
  intro expression
  have formed : WellFormed expression := by
    refine .any (by decide) ?_
    rw [List.forall_mem_cons, List.forall_mem_singleton]
    exact ⟨.negation (.compare _ ⟨by decide, by decide⟩ trivial), .truthy trivial⟩
  have printed : Printed expression _ :=
    .any (.cons (.negation (.compare .isNotIn (.word "if") (.quoted _ (.inl rfl))))
      (.cons (.truthy (.quoted "" (.inr rfl))) .nil))
  exact ⟨formed, (parse_printed formed).2 _ printed⟩

end Expression

end Docscript

import Docscript.Proofs.ConditionBlock.Keys
import Docscript.Proofs.Document.Splicing
import Docscript.Proofs.Loop.Counting
import Docscript.Proofs.Loop.Grammar

/- Conditions are told by the start of a key, loops by its words, and the first word of a counted
loop may be any path: the two grammars meet where a loop counts by a variable called `if`. -/

set_option autoImplicit false

namespace Docscript

/-- The words of a key. -/
def keyWords (key : String) : List String := (Text.words key.toList).map String.ofList

/-- Whether a key declares a counted loop by a variable called `if`, with a space after it. -/
def CountsIf (key : String) : Prop :=
  "if ".toList <+: Text.trim key.toList ∧
    (keyWords key = ["if", "times", "do"] ∨
      ∃ name : String, Loop.name? name.toList = some name ∧
        keyWords key = ["if", "times", "with", name, "do"])

section Words

variable {key : String} {rest : List Char}

theorem keyWords_trim (key : String) :
    keyWords key = (Text.words (Text.trim key.toList)).map String.ofList := by
  rw [Text.words_trim, keyWords]

theorem keyWords_of_lead (lead : Text.trim key.toList = "if ".toList ++ rest) :
    keyWords key = "if" :: (Text.words rest).map String.ofList := by
  have blank : Text.isBlank ' ' = true := by decide
  have whole : "if ".toList ++ rest = "if".toList ++ ' ' :: rest := rfl
  rw [keyWords_trim, lead, whole, Text.words_append_cons blank, List.map_append]
  rfl

end Words

namespace ConditionKey

variable {key : String}

theorem keyWords_of_parse? {role : ConditionKey} (read : parse? key = some role) :
    keyWords key = ["else"] ∨ (∃ others, keyWords key = "else" :: "if" :: others) ∨
      ∃ rest, Text.trim key.toList = "if ".toList ++ rest := by
  rw [parse?] at read
  split at read
  · next alone =>
    left
    rw [keyWords_trim, alone]
    rfl
  · split at read
    · next _ rest lead =>
      have blank : Text.isBlank ' ' = true := by decide
      rw [Text.dropLead?, List.isPrefixOf?_eq_some_iff_append_eq] at lead
      have whole : Text.trim key.toList = "else".toList ++ ' ' :: ("if".toList ++ ' ' :: rest) :=
        lead.symm
      right
      left
      refine ⟨(Text.words rest).map String.ofList, ?_⟩
      rw [keyWords_trim, whole, Text.words_append_cons blank, Text.words_append_cons blank,
        List.map_append, List.map_append]
      rfl
    · next rest _ lead =>
      rw [Text.dropLead?, List.isPrefixOf?_eq_some_iff_append_eq] at lead
      exact .inr (.inr ⟨rest, lead.symm⟩)
    · cases read

end ConditionKey

namespace Loop

variable {key : String} {declared : Loop}

theorem parse?_eq_some_iff_declares :
    parse? key = some declared ↔ Declares (keyWords key) declared :=
  parse?_eq_some_iff

theorem not_declares_else {others : List String} (uncounted : others.head? ≠ some "times") :
    ¬ Declares ("else" :: others) declared := by
  intro declares
  generalize whole : "else" :: others = words at declares
  cases declares with
  | times counted | timesWith counted named =>
    obtain ⟨-, rfl⟩ := List.cons.inj whole
    exact absurd rfl uncounted
  | range leads links named first last foremost =>
    obtain ⟨rfl, -⟩ := List.cons.inj whole
    exact absurd leads (by decide)
  | array leads named indexed plain | object leads named indexed plain =>
    obtain ⟨rfl, -⟩ := List.cons.inj whole
    exact absurd leads (by decide)

/-- A loop whose first word is `if` counts by that variable. -/
theorem counted_of_declares_if {others : List String}
    (declares : Declares ("if" :: others) declared) :
    others = ["times", "do"] ∨ ∃ name : String, name? name.toList = some name ∧
      others = ["times", "with", name, "do"] := by
  generalize whole : "if" :: others = words at declares
  cases declares with
  | times counted => exact .inl (List.cons.inj whole).2
  | timesWith counted named => exact .inr ⟨_, named, (List.cons.inj whole).2⟩
  | range leads links named first last foremost =>
    obtain ⟨rfl, -⟩ := List.cons.inj whole
    exact absurd leads (by decide)
  | array leads named indexed plain | object leads named indexed plain =>
    obtain ⟨rfl, -⟩ := List.cons.inj whole
    exact absurd leads (by decide)

end Loop

namespace CountsIf

variable {key : String} {options : CompileOptions} {c : Context}

theorem exists_declared (counts : CountsIf key) :
    ∃ counter, Loop.parse? key = some (.times (.path "if") counter) := by
  have counted : Bound.parse? "if".toList = some (.path "if") := rfl
  rcases counts.2 with words | ⟨name, named, words⟩
  · refine ⟨none, Loop.parse?_eq_some_iff_declares.mpr ?_⟩
    rw [words]
    exact .times counted
  · refine ⟨some name, Loop.parse?_eq_some_iff_declares.mpr ?_⟩
    rw [words]
    exact .timesWith counted named

theorem exists_expression (counts : CountsIf key) :
    ∃ expression second others, ConditionKey.parse? key = some (.ifTrue expression) ∧
      keyWords expression = "times" :: second :: others ∧ (second = "do" ∨ second = "with") := by
  obtain ⟨rest, lead⟩ := counts.1
  have words := keyWords_of_lead lead.symm
  have after : ∃ second others, (Text.words rest).map String.ofList = "times" :: second :: others ∧
      (second = "do" ∨ second = "with") := by
    rcases counts.2 with whole | ⟨name, -, whole⟩
    · rw [whole] at words
      exact ⟨_, _, (List.cons.inj words).2.symm, .inl rfl⟩
    · rw [whole] at words
      exact ⟨_, _, (List.cons.inj words).2.symm, .inr rfl⟩
  obtain ⟨second, others, tail, either⟩ := after
  have more : Text.trim rest ≠ [] := by
    intro nothing
    rw [← Text.words_trim, nothing] at tail
    cases tail
  refine ⟨_, second, others, ConditionKey.parse?_of_lead lead.symm more, ?_, either⟩
  rw [keyWords, String.toList_ofList, Text.words_trim, tail]

end CountsIf

/-- The two grammars meet where a loop counts by a variable called `if`. -/
theorem isConditionKey_and_isLoopKey_iff (key : String) :
    isConditionKey key = true ∧ isLoopKey key = true ↔ CountsIf key := by
  rw [isConditionKey, isLoopKey, Option.isSome_iff_exists, Option.isSome_iff_exists]
  constructor
  · rintro ⟨⟨role, condition⟩, declared, loop⟩
    rw [Loop.parse?_eq_some_iff_declares] at loop
    rcases ConditionKey.keyWords_of_parse? condition with alone | ⟨others, second⟩ | ⟨rest, lead⟩
    · rw [alone] at loop
      exact absurd loop (Loop.not_declares_else (by simp))
    · rw [second] at loop
      exact absurd loop (Loop.not_declares_else (by simp))
    · have words := keyWords_of_lead lead
      rw [words] at loop
      refine ⟨⟨rest, lead.symm⟩, ?_⟩
      rw [words]
      rcases Loop.counted_of_declares_if loop with plain | ⟨name, named, counter⟩
      · exact .inl (congrArg _ plain)
      · exact .inr ⟨name, named, congrArg _ counter⟩
  · intro counts
    obtain ⟨expression, _, _, condition, -⟩ := counts.exists_expression
    obtain ⟨counter, loop⟩ := counts.exists_declared
    exact ⟨⟨_, condition⟩, _, loop⟩

namespace Expression

/-- What follows the `if` of a counted loop is no expression: nothing can go on after its first word
but a comparison or a separator. -/
theorem exists_fault_of_times {expression second : String} {others : List String}
    (trimmed : Text.trim expression.toList = expression.toList)
    (words : keyWords expression = "times" :: second :: others)
    (either : second = "do" ∨ second = "with") :
    ∃ fault, parse expression = .error (.expression expression fault) := by
  have other : ¬ StartsWithIf expression.toList := by
    rintro (alone | ⟨rest, lead⟩)
    · rw [keyWords, alone] at words
      exact absurd (List.cons.inj words).1 (by decide)
    · rw [keyWords_of_lead (trimmed.trans lead.symm)] at words
      exact absurd (List.cons.inj words).1 (by decide)
  have chars : Text.words expression.toList =
      "times".toList :: second.toList :: others.map String.toList := by
    have row := congrArg (List.map String.toList) words
    rw [keyWords, List.map_map] at row
    simpa using row
  rw [parse_eq, withoutIf_of_not_startsWithIf trimmed other]
  cases scanned : Token.scan expression.toList with
  | error fault => exact ⟨_, rfl⟩
  | ok tokens =>
    have times : Token.Bare "times".toList := by decide
    have bare : Token.Bare second.toList := by rcases either with rfl | rfl <;> decide
    have operand : Token.ofWord (String.ofList second.toList) = .word second := by
      rcases either with rfl | rfl <;> rfl
    obtain ⟨rest, later, onward, scannedRest, rfl⟩ := Token.exists_of_scan_eq_ok chars times scanned
    obtain ⟨-, last, -, -, rfl⟩ := Token.exists_of_scan_eq_ok onward bare scannedRest
    cases parsed : ofTokens (.word "times" :: .word second :: last) with
    | error fault =>
      refine ⟨fault, ?_⟩
      simp only [Except.bind, operand]
      exact congrArg (Except.mapError (Error.expression expression)) parsed
    | ok tree =>
      rcases eq_nil_or_continues (.word "times") parsed with none | continues
      · cases none
      · generalize whole : Token.word second :: last = tokens at continues
        cases continues with
        | alternative rest | addition rest => cases whole
        | compared compares rest => cases compares <;> cases whole

end Expression

namespace KeyClass

variable {key : String} {options : CompileOptions} {c : Context}

theorem classify_of_countsIf (counts : CountsIf key) :
    ∃ expression, classify key = .condition (.ifTrue expression) := by
  obtain ⟨expression, _, _, read, -⟩ := counts.exists_expression
  exact ⟨expression, by rw [classify, read]⟩

theorem classify_of_parse? {declared : Loop} (read : Loop.parse? key = some declared)
    (apart : ¬ CountsIf key) : classify key = .loop declared := by
  have loop : isLoopKey key = true := by rw [isLoopKey, read, Option.isSome_some]
  have unread : ConditionKey.parse? key = none := by
    rw [← isConditionKey_and_isLoopKey_iff, not_and, isConditionKey] at apart
    exact Option.not_isSome_iff_eq_none.mp fun condition => apart condition loop
  rw [classify, unread, read]

theorem exists_fault_of_countsIf (counts : CountsIf key) (body : Value) :
    ∃ expression fault, classify key = .condition (.ifTrue expression) ∧
      Document.render options c (.object [(key, body)]) =
        .error (.expression expression fault) := by
  obtain ⟨expression, second, others, read, words, either⟩ := counts.exists_expression
  obtain ⟨fault, failed⟩ :=
    Expression.exists_fault_of_times (Expression.trim_expression read) words either
  have condition : isConditionKey key = true := by rw [isConditionKey, read, Option.isSome_some]
  have block : Document.isConditionBlock [(key, body)] = true := by
    simp [Document.isConditionBlock, condition]
  refine ⟨expression, fault, by rw [classify, read], ?_⟩
  rw [Document.render, Document.meaning_of_block block, ConditionBlock.ofEntries_singleton read,
    failed]
  rfl

/-- A key is both a condition and a loop exactly if it counts by `if`, and is then classified as a
condition. Every other key is a loop exactly if it is classified as one. What is expanded in rounds
is a document that is expanded as this loop, in these rounds, unless its key counts by `if`; then it
is a document that has no value, since no expression follows the `if`. -/
theorem conditions_and_loops :
    (∀ key, isConditionKey key = true ∧ isLoopKey key = true ↔ CountsIf key) ∧
    (∀ key, CountsIf key → ∃ expression, classify key = .condition (.ifTrue expression)) ∧
    (∀ key, ¬ CountsIf key →
      (isLoopKey key = true ↔ ∃ declared, classify key = .loop declared)) ∧
    ∀ (options : CompileOptions) (c : Context) (declaration : Value) (expansion : Expansion),
      Expansion.ofDeclaration options c declaration = .ok expansion →
      ∃ key body, declaration = .object [(key, body)] ∧
        (¬ CountsIf key → ∃ declared, classify key = .loop declared ∧
          declared.bind c = .ok expansion.scopes ∧
          Document.meaning options declaration c =
            Document.expand declared (Document.meaning options body) c) ∧
        (CountsIf key → ∃ expression fault, classify key = .condition (.ifTrue expression) ∧
          Document.render options c declaration = .error (.expression expression fault)) := by
  refine ⟨isConditionKey_and_isLoopKey_iff, fun _ => classify_of_countsIf, ?_, ?_⟩
  · intro key apart
    rw [isLoopKey, Option.isSome_iff_exists]
    constructor
    · rintro ⟨declared, read⟩
      exact ⟨declared, classify_of_parse? read apart⟩
    · rintro ⟨declared, kind⟩
      exact ⟨declared, parse?_of_classify_eq_loop kind⟩
  · intro options c declaration expansion accepted
    obtain ⟨key, body, declared, scopes, rfl, read, bound, rfl⟩ :=
      Expansion.exists_of_ofDeclaration_eq_ok accepted
    refine ⟨key, body, rfl, fun apart => ?_, fun counts => exists_fault_of_countsIf counts body⟩
    have kind := classify_of_parse? read apart
    exact ⟨declared, kind, bound, Document.meaning_of_loop kind body⟩

/-- After another blank than a space the word `if` does not start a condition. -/
theorem conditions_and_loops_of_blanks :
    let c : Context := ⟨[("if", .int 2)]⟩
    isLoopKey "if\ttimes do" = true ∧
    (∃ declared, classify "if\ttimes do" = .loop declared ∧
      Document.meaning ⟨true⟩ (.object [("if\ttimes do", .null)]) c =
        Document.expand declared (Document.meaning ⟨true⟩ .null) c) ∧
    (∃ expression, classify "if times do" = .condition (.ifTrue expression)) ∧
    ∃ expression fault, classify "if times do" = .condition (.ifTrue expression) ∧
      Document.render ⟨true⟩ c (.object [("if times do", .null)]) =
        .error (.expression expression fault) := by
  intro c
  obtain ⟨-, conditions, loops, expansions⟩ := conditions_and_loops
  have apart : ¬ CountsIf "if\ttimes do" := fun counts => absurd counts.1 (by decide)
  have counts : CountsIf "if times do" := ⟨by decide, .inl rfl⟩
  have found : c.get? "if" = some (.int (2 : Int64).toInt) := Context.get?_of_stored (by decide) rfl
  have accepted (key : String) (read : Loop.parse? key = some (.times (.path "if") none)) :
      ∃ expansion, Expansion.ofDeclaration ⟨true⟩ c (.object [(key, .null)]) = .ok expansion := by
    rw [Expansion.ofDeclaration_of_parse? ⟨true⟩ c read, Loop.bind, Bound.resolve?_path found]
    exact ⟨_, rfl⟩
  obtain ⟨_, tabbed⟩ := accepted "if\ttimes do" rfl
  obtain ⟨_, _, whole, expanded, -⟩ := expansions _ _ _ _ tabbed
  cases whole
  obtain ⟨own, same, -, meaning⟩ := expanded apart
  obtain ⟨_, spaced⟩ := accepted "if times do" rfl
  obtain ⟨_, _, whole, -, failed⟩ := expansions _ _ _ _ spaced
  cases whole
  have loop := (loops _ apart).mpr ⟨own, same⟩
  exact ⟨loop, ⟨own, same, meaning⟩, conditions _ counts, failed counts⟩

/-- A key that counts by `if` is both, and is no loop to a document. -/
theorem not_forall_conditions_and_loops :
    (¬ ∀ key, ¬ (isConditionKey key = true ∧ isLoopKey key = true)) ∧
    ¬ ∀ key, isLoopKey key = true ↔ ∃ declared, classify key = .loop declared := by
  have condition : isConditionKey "if times do" = true := rfl
  have loop : isLoopKey "if times do" = true := rfl
  have kind : classify "if times do" = .condition (.ifTrue "times do") := rfl
  constructor
  · intro never
    exact never "if times do" ⟨condition, loop⟩
  · intro always
    obtain ⟨declared, other⟩ := (always "if times do").mp loop
    rw [kind] at other
    cases other

end KeyClass

end Docscript

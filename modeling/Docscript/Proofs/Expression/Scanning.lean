import Docscript.Expression.Parser
import Docscript.Proofs.Steps
import Docscript.Proofs.Text.Parts

set_option autoImplicit false

namespace Docscript

namespace Token

/-- A word that is written without quotes: it has neither blanks nor parentheses in it and does not
start with a quote. -/
structure Bare (word : List Char) : Prop where
  nonempty : word ≠ []
  unbroken : ∀ c ∈ word, Text.isBlank c = false ∧ c ≠ '(' ∧ c ≠ ')'
  unquoted : ∀ c ∈ word.head?, c ≠ '\'' ∧ c ≠ '"'

theorem bare_iff {word : List Char} :
    Bare word ↔ word ≠ [] ∧
      (word.all fun c => !Text.isBlank c && c != '(' && c != ')') = true ∧
      (word.head?.all fun c => c != '\'' && c != '"') = true := by
  simp only [List.all_eq_true, Option.all_eq_true, Bool.and_eq_true, Bool.not_eq_true',
    bne_iff_ne, ne_eq, and_assoc]
  exact ⟨fun bare => ⟨bare.nonempty, bare.unbroken, bare.unquoted⟩,
    fun ⟨nonempty, unbroken, unquoted⟩ => ⟨nonempty, unbroken, unquoted⟩⟩

instance (word : List Char) : Decidable (Bare word) := decidable_of_iff _ bare_iff.symm

theorem scan_trimStart (text : List Char) : scan (Text.trimStart text) = scan text := by
  induction text with
  | nil => rfl
  | cons c rest ih =>
    cases blank : Text.isBlank c with
    | false => rw [Text.trimStart, List.dropWhile_cons_of_neg (by simp [blank])]
    | true =>
      rw [Text.trimStart, List.dropWhile_cons_of_pos blank, scan, if_pos blank]
      exact ih

theorem scanWord_append {word : List Char}
    (unbroken : ∀ c ∈ word, Text.isBlank c = false ∧ c ≠ '(' ∧ c ≠ ')')
    (pending rest : List Char) :
    scanWord pending (word ++ rest) = scanWord (word.reverse ++ pending) rest := by
  induction word generalizing pending with
  | nil => rfl
  | cons c others ih =>
    rw [List.forall_mem_cons] at unbroken
    obtain ⟨⟨blankless, open_, close⟩, later⟩ := unbroken
    rw [List.cons_append, scanWord, if_neg (by simp [blankless]), if_neg open_, if_neg close,
      ih later]
    simp

theorem scan_append_of_bare {word : List Char} (bare : Bare word) (rest : List Char) :
    scan (word ++ rest) = scanWord word.reverse rest := by
  obtain ⟨c, others, rfl⟩ := List.exists_cons_of_ne_nil bare.nonempty
  obtain ⟨⟨blankless, open_, close⟩, later⟩ := List.forall_mem_cons.mp bare.unbroken
  obtain ⟨single, double⟩ := bare.unquoted c rfl
  rw [List.cons_append, scan, if_neg (by simp [blankless]), if_neg open_, if_neg close,
    if_neg (by simp [single, double]), scanWord_append later, List.reverse_cons]

theorem scan_bare {word : List Char} (bare : Bare word) :
    scan word = .ok [ofWord (String.ofList word)] := by
  have whole := scan_append_of_bare bare []
  rw [List.append_nil, scanWord, List.reverse_reverse] at whole
  exact whole

theorem scan_bare_cons {word : List Char} (bare : Bare word) {blank : Char}
    (ends : Text.isBlank blank = true) (rest : List Char) :
    scan (word ++ blank :: rest) = (ofWord (String.ofList word) :: ·) <$> scan rest := by
  rw [scan_append_of_bare bare, scanWord, if_pos ends, List.reverse_reverse]

/-- A bare word at the front of a text is its first token, and the other words lead to the other
tokens. -/
theorem exists_of_scan_eq_ok {text word : List Char} {others : List (List Char)}
    {tokens : List Token} (first : Text.words text = word :: others) (bare : Bare word)
    (scanned : scan text = .ok tokens) :
    ∃ rest later, Text.words rest = others ∧ scan rest = .ok later ∧
      tokens = ofWord (String.ofList word) :: later := by
  obtain ⟨rest, start, words, ends⟩ := Text.exists_of_words_eq_cons first
  rw [← scan_trimStart, start] at scanned
  refine ⟨rest, ?_⟩
  cases rest with
  | nil =>
    rw [List.append_nil, scan_bare bare] at scanned
    cases scanned
    exact ⟨[], words, rfl, rfl⟩
  | cons blank after =>
    have blank' : Text.isBlank blank = true := ends blank rfl
    rw [scan_bare_cons bare blank'] at scanned
    obtain ⟨later, own, same⟩ := Steps.of_map_eq_ok scanned
    exact ⟨later, words, by rw [scan, if_pos blank', own], same.symm⟩

end Token

namespace Expression

/-- The expression that a row of tokens or a fault of scanning amounts to. -/
theorem parse_eq (source : String) :
    parse source =
      ((Token.scan (withoutIf source.toList)).bind ofTokens).mapError (.expression source) := by
  rw [parse]
  cases Token.scan (withoutIf source.toList) with
  | error fault => rfl
  | ok tokens =>
    simp only [Except.bind]
    cases ofTokens tokens <;> rfl

theorem parse_of_scan {source : String} {tokens : List Token}
    (scanned : Token.scan (withoutIf source.toList) = .ok tokens) :
    parse source = (ofTokens tokens).mapError (.expression source) := by
  rw [parse_eq, scanned]
  rfl

/-- Whether a text is `if` or starts with it, as a word of its own. -/
def StartsWithIf (source : List Char) : Prop :=
  source = "if".toList ∨ "if ".toList <+: source

theorem withoutIf_of_not_startsWithIf {source : List Char} (trimmed : Text.trim source = source)
    (other : ¬ StartsWithIf source) : withoutIf source = source := by
  rw [StartsWithIf, not_or] at other
  rw [withoutIf, trimmed]
  simp only [if_neg other.1]
  cases found : Text.dropLead? "if " source with
  | none => rfl
  | some rest =>
    rw [Text.dropLead?, List.isPrefixOf?_eq_some_iff_append_eq] at found
    exact absurd ⟨rest, found⟩ other.2

theorem not_startsWithIf_of_bare {word : List Char} (bare : Token.Bare word)
    (other : word ≠ "if".toList) (rest : List Char) : ¬ StartsWithIf (word ++ ' ' :: rest) := by
  have blank : Text.isBlank ' ' = true := by decide
  have front (word rest : List Char) (plain : ∀ c ∈ word, Text.isBlank c = false) :
      (word ++ ' ' :: rest).takeWhile (!Text.isBlank ·) = word := by
    rw [List.takeWhile_append_of_pos (by simpa using plain),
      List.takeWhile_cons_of_neg (by simp [blank]), List.append_nil]
  have own := front word rest fun c member => (bare.unbroken c member).1
  rintro (alone | ⟨tail, lead⟩)
  · have inside : ' ' ∈ "if".toList := alone ▸ by simp
    exact absurd inside (by decide)
  · have reserved : Token.Bare "if".toList := by decide
    have first := front "if".toList tail fun c member => (reserved.unbroken c member).1
    have same : "if ".toList ++ tail = "if".toList ++ ' ' :: tail := rfl
    rw [← same, lead, own] at first
    exact other first

theorem trim_between_bare {first last : List Char} (starts : Token.Bare first)
    (ends : Token.Bare last) (middle : List Char) :
    Text.trim (first ++ middle ++ last) = first ++ middle ++ last := by
  rw [Text.trim_eq_self_iff, Text.trimStart_eq_self_iff, Text.trimEnd_eq_self_iff]
  constructor
  · intro c leading
    rw [List.append_assoc, List.head?_append_of_ne_nil _ starts.nonempty] at leading
    exact (starts.unbroken c (List.mem_of_head? leading)).1
  · intro c trailing
    rw [List.getLast?_append_of_ne_nil _ ends.nonempty] at trailing
    exact (ends.unbroken c (List.mem_of_getLast? trailing)).1

/-- After `if` and a blank the rest counts, from its first token on. -/
theorem withoutIf_of_lead {source rest : List Char}
    (lead : Text.trim source = "if ".toList ++ rest) : withoutIf source = Text.trimStart rest := by
  have longer : "if ".toList ++ rest ≠ "if".toList := by
    intro same
    have short := congrArg List.length same
    simp at short
  have found : Text.dropLead? "if " ("if ".toList ++ rest) = some rest :=
    List.isPrefixOf?_eq_some_iff_append_eq.mpr rfl
  rw [withoutIf, lead]
  simp only [if_neg longer, found]

end Expression

end Docscript

import Docscript.Proofs.Operation.History
import Docscript.Proofs.Operation.Names

set_option autoImplicit false

namespace Docscript

namespace OperationName

open Text (isUppercase isLowercase lowercase)

/-- A lower-case letter or a digit of ASCII. -/
def isWordChar (c : Char) : Bool := c.isLower || c.isDigit

section Characters

variable {c : Char}

theorem toNat_lt_of_isWordChar (plain : isWordChar c = true) : c.toNat < 128 := by
  have bound {last : UInt32} (upper : c.val ≤ last) (ascii : last < 128) : c.toNat < 128 :=
    Nat.lt_of_le_of_lt (UInt32.le_iff_toNat_le.mp upper) (UInt32.lt_iff_toNat_lt.mp ascii)
  rw [isWordChar, Bool.or_eq_true] at plain
  rcases plain with lower | digit
  · exact bound (of_decide_eq_true (Bool.and_eq_true_iff.mp lower).2) (by decide)
  · exact bound (of_decide_eq_true (Bool.and_eq_true_iff.mp digit).2) (by decide)

/-- Such a character is written as it is, and a word begins after it. -/
theorem plain_of_isWordChar (plain : isWordChar c = true) :
    isSeparator c = false ∧ isUppercase c = false ∧ (isLowercase c || c.isDigit) = true ∧
      c ≠ '_' ∧ c ≠ '.' := by
  have ascii := toNat_lt_of_isWordChar plain
  revert plain
  exact Text.ascii_induction (by decide +kernel) c ascii

/-- A small letter is what its capital letter is written as. -/
theorem capital_of_isLower (lower : c.isLower = true) :
    isUppercase c.toUpper = true ∧ lowercase c.toUpper = [c] ∧ c.toUpper ≠ '.' := by
  have ascii : c.toNat < 128 := toNat_lt_of_isWordChar (by rw [isWordChar, lower, Bool.true_or])
  revert lower
  exact Text.ascii_induction (by decide +kernel) c ascii

end Characters

/-- A word of a name: a small letter, and after it one or more small letters or digits. -/
structure Word where
  first : Char
  rest : List Char
  first_lower : first.isLower = true
  rest_ne_nil : rest ≠ []
  rest_plain : ∀ c ∈ rest, isWordChar c = true

namespace Word

def text (word : Word) : List Char := word.first :: word.rest

def capitalized (word : Word) : List Char := word.first.toUpper :: word.rest

variable (word : Word)

theorem plain_of_mem_text {c : Char} (member : c ∈ word.text) : isWordChar c = true := by
  rcases List.mem_cons.mp member with rfl | later
  · rw [isWordChar, word.first_lower, Bool.true_or]
  · exact word.rest_plain c later

theorem exists_getLast? : ∃ last, isWordChar last = true ∧ word.rest.getLast? = some last := by
  obtain ⟨last, ends⟩ := Option.isSome_iff_exists.mp (List.getLast?_isSome.mpr word.rest_ne_nil)
  exact ⟨last, word.rest_plain last (List.mem_of_getLast? ends), ends⟩

theorem dot_not_mem_text : '.' ∉ word.text :=
  fun member => absurd (word.plain_of_mem_text member) (by decide)

theorem dot_not_mem_capitalized : '.' ∉ word.capitalized := by
  rw [capitalized, List.mem_cons, not_or]
  exact ⟨(capital_of_isLower word.first_lower).2.2.symm,
    fun member => absurd (word.rest_plain _ member) (by decide)⟩

end Word

/-- The ways to write the words of a part of a name. -/
inductive Style where
  | camel
  | pascal
  | kebab
  | snake
  | spaced

namespace Style

/-- How the first word is written. -/
def lead : Style → Word → List Char
  | pascal, word => word.capitalized
  | _, word => word.text

/-- How a word after the first one is written. -/
def follow : Style → Word → List Char
  | camel, word => word.capitalized
  | pascal, word => word.capitalized
  | kebab, word => '-' :: word.text
  | snake, word => '_' :: word.text
  | spaced, word => ' ' :: word.text

end Style

/-- A part of a name, written in a style. -/
structure Part where
  style : Style
  first : Word
  others : List Word

namespace Part

def words (part : Part) : List Word := part.first :: part.others

def write (part : Part) : List Char :=
  part.style.lead part.first ++ part.others.flatMap part.style.follow

end Part

/-- A name whose parts are written each in its style. -/
def spell (parts : List Part) : String :=
  String.ofList (['.'].intercalate (parts.map Part.write))

/-- The one name of parts that consist of some words. -/
def standard (parts : List (List Word)) : String :=
  String.ofList (['.'].intercalate (parts.map fun words => ['_'].intercalate (words.map Word.text)))

section Folding

variable {previous last : Option Char} {c : Char}

theorem folded_append_of_plain {front : List Char} (plain : ∀ c ∈ front, isWordChar c = true)
    (previous last : Option Char) (text : List Char) :
    folded previous last (front ++ text) =
      front ++ folded (front.getLast?.or previous) (front.getLast?.or last) text := by
  induction front generalizing previous last with
  | nil => rfl
  | cons c rest ih =>
    rw [List.forall_mem_cons] at plain
    obtain ⟨letter, lower, -⟩ := plain_of_isWordChar plain.1
    rw [List.cons_append, folded, letter, lower, if_neg Bool.false_ne_true,
      if_neg Bool.false_ne_true, ih plain.2, List.cons_append]
    cases rest with
    | nil => rfl
    | cons d others =>
      have some := List.getLast?_isSome.mpr (List.cons_ne_nil d others)
      rw [List.getLast?_cons_cons, Option.or_of_isSome some, Option.or_of_isSome some,
        Option.or_of_isSome some]

theorem folded_rest (word : Word) (previous last : Option Char) (text : List Char) :
    ∃ ending, isWordChar ending = true ∧
      folded previous last (word.rest ++ text) =
        word.rest ++ folded (some ending) (some ending) text := by
  obtain ⟨ending, plain, ends⟩ := word.exists_getLast?
  refine ⟨ending, plain, ?_⟩
  rw [folded_append_of_plain word.rest_plain, ends, Option.some_or, Option.some_or]

theorem folded_text (word : Word) (previous last : Option Char) (text : List Char) :
    ∃ ending, isWordChar ending = true ∧
      folded previous last (word.text ++ text) =
        word.text ++ folded (some ending) (some ending) text := by
  have plain : isWordChar word.first = true := by rw [isWordChar, word.first_lower, Bool.true_or]
  obtain ⟨letter, lower, -⟩ := plain_of_isWordChar plain
  obtain ⟨ending, ends, rest⟩ := folded_rest word (some word.first) (some word.first) text
  refine ⟨ending, ends, ?_⟩
  rw [Word.text, List.cons_append, folded, letter, lower, if_neg Bool.false_ne_true,
    if_neg Bool.false_ne_true, rest, List.cons_append]

/-- The capital letter of a word is written small, after a gap if a word begins there. -/
theorem folded_capitalized (word : Word) (previous last : Option Char) (text : List Char) :
    ∃ ending, isWordChar ending = true ∧
      folded previous last (word.capitalized ++ text) =
        (if beginsWord previous (word.rest ++ text).head? then gap last else []) ++
          (word.text ++ folded (some ending) (some ending) text) := by
  obtain ⟨upper, form, -⟩ := capital_of_isLower word.first_lower
  have letter := isSeparator_eq_false_of_isUppercase upper
  obtain ⟨ending, ends, rest⟩ :=
    folded_rest word (some word.first.toUpper) (some word.first) text
  refine ⟨ending, ends, ?_⟩
  rw [Word.capitalized, List.cons_append, folded, letter, upper, if_neg Bool.false_ne_true,
    if_pos rfl, form, List.getLast?_singleton, rest]
  rfl

/-- Whatever the style, a word after another one is written in small letters after an underscore. -/
theorem folded_follow (style : Style) (word : Word) (ends : isWordChar c = true)
    (text : List Char) :
    ∃ ending, isWordChar ending = true ∧
      folded (some c) (some c) (style.follow word ++ text) =
        '_' :: (word.text ++ folded (some ending) (some ending) text) := by
  obtain ⟨-, -, begins, apart, -⟩ := plain_of_isWordChar ends
  have gapped : gap (some c) = ['_'] := by simp [gap, apart]
  have capital : ∃ ending, isWordChar ending = true ∧
      folded (some c) (some c) (word.capitalized ++ text) =
        '_' :: (word.text ++ folded (some ending) (some ending) text) := by
    obtain ⟨ending, plain, whole⟩ := folded_capitalized word (some c) (some c) text
    refine ⟨ending, plain, ?_⟩
    rw [whole, beginsWord, if_pos begins, if_pos rfl, gapped]
    rfl
  have separated {separator : Char} (separates : isSeparator separator = true) :
      ∃ ending, isWordChar ending = true ∧
        folded (some c) (some c) (separator :: word.text ++ text) =
          '_' :: (word.text ++ folded (some ending) (some ending) text) := by
    obtain ⟨ending, plain, whole⟩ := folded_text word (some separator) (some '_') text
    refine ⟨ending, plain, ?_⟩
    rw [List.cons_append, folded, if_pos separates, gapped, Option.map_some, whole]
    rfl
  cases style with
  | camel | pascal => exact capital
  | kebab | snake | spaced => exact separated (by decide)

theorem folded_others (style : Style) (others : List Word) (ends : isWordChar c = true) :
    folded (some c) (some c) (others.flatMap style.follow) =
      others.flatMap fun word => '_' :: word.text := by
  induction others generalizing c with
  | nil => rfl
  | cons word rest ih =>
    obtain ⟨ending, plain, whole⟩ :=
      folded_follow style word ends (rest.flatMap style.follow)
    rw [List.flatMap_cons, whole, ih plain, List.flatMap_cons, List.cons_append]

theorem folded_lead (style : Style) (word : Word) (text : List Char) :
    ∃ ending, isWordChar ending = true ∧
      folded none none (style.lead word ++ text) =
        word.text ++ folded (some ending) (some ending) text := by
  cases style with
  | pascal => exact folded_capitalized word none none text
  | camel | kebab | snake | spaced => exact folded_text word none none text

theorem intercalate_words (first : Word) (others : List Word) :
    ['_'].intercalate ((first :: others).map Word.text) =
      first.text ++ others.flatMap fun word => '_' :: word.text := by
  induction others generalizing first with
  | nil => simp
  | cons second rest ih =>
    rw [List.map_cons, List.map_cons, List.intercalate_cons_cons, ← List.map_cons, ih,
      List.flatMap_cons]
    simp

/-- The words do not end with an underscore. -/
theorem getLast?_words_ne (first : Word) (others : List Word) :
    (['_'].intercalate ((first :: others).map Word.text)).getLast? ≠ some '_' := by
  induction others generalizing first with
  | nil =>
    rw [List.map_singleton, List.intercalate_singleton]
    intro ends
    exact absurd (first.plain_of_mem_text (List.mem_of_getLast? ends)) (by decide)
  | cons second rest ih =>
    have more : ['_'].intercalate ((second :: rest).map Word.text) ≠ [] := by
      rw [intercalate_words, Word.text]
      simp
    rw [List.map_cons, List.map_cons, List.intercalate_cons_cons, ← List.map_cons,
      List.getLast?_append_of_ne_nil _ more]
    exact ih second

/-- A part is folded to its words with underscores between them. -/
theorem foldPart_write (part : Part) :
    foldPart part.write = ['_'].intercalate (part.words.map Word.text) := by
  obtain ⟨ending, ends, whole⟩ := folded_lead part.style part.first
    (part.others.flatMap part.style.follow)
  rw [foldPart_eq, Part.write, whole, folded_others part.style part.others ends,
    ← intercalate_words, Part.words, List.rdropWhile_eq_self_iff]
  intro some underscore
  rw [beq_iff_eq] at underscore
  exact getLast?_words_ne _ _ (by rw [List.getLast?_eq_some_getLast some, underscore])

end Folding

theorem dot_not_mem_write (part : Part) : '.' ∉ part.write := by
  obtain ⟨style, first, others⟩ := part
  rw [Part.write, List.mem_append, List.mem_flatMap, not_or]
  constructor
  · cases style with
    | pascal => exact first.dot_not_mem_capitalized
    | camel | kebab | snake | spaced => exact first.dot_not_mem_text
  · rintro ⟨word, -, member⟩
    cases style with
    | camel | pascal => exact word.dot_not_mem_capitalized member
    | kebab | snake | spaced =>
      rcases List.mem_cons.mp member with separator | inside
      · exact absurd separator (by decide)
      · exact word.dot_not_mem_text inside

/-- However the parts are written, they are folded to the one name of their words. -/
theorem canonical_spell (parts : List Part) :
    canonical (spell parts) = standard (parts.map Part.words) := by
  rw [canonical, spell, String.toList_ofList, standard, String.ofList_inj, canonicalChars_eq,
    foldedParts]
  cases parts with
  | nil => rfl
  | cons part rest =>
    have undotted : ∀ text ∈ (part :: rest).map Part.write, '.' ∉ text := by
      rw [List.forall_mem_map]
      exact fun part _ => dot_not_mem_write part
    rw [List.splitOn_intercalate _ undotted (by simp), List.map_map, List.map_map]
    congr 1
    apply List.map_congr_left
    exact fun part _ => foldPart_write part

end OperationName

namespace Registry

open OperationName (Word Part canonical spell standard canonical_spell)

/-- A registration is found under every name that is folded to the one it was made under. -/
theorem lookups_registerIn {name other : String} (same : canonical other = canonical name)
    (registry : Registry) (source : String) (operation : Operation) :
    let outcome := registry.registerIn source name operation
    outcome.registry.contains other = true ∧
    (registry.contains other = false → outcome.result = .ok true ∧
      outcome.registry.get? other = some operation ∧
      outcome.registry.sourceOf? other = some source) ∧
    (registry.contains other = true → outcome.registry.get? other = registry.get? other ∧
      outcome.registry.sourceOf? other = registry.sourceOf? other) := by
  intro outcome
  have entry := get?_registerIn source name operation registry (canonical name)
  rw [if_pos rfl] at entry
  simp only [contains, get?, sourceOf?, Entries.contains, same]
  change outcome.registry.entries.get? (canonical name) = _ at entry
  rw [entry]
  cases taken : registry.entries.get? (canonical name) with
  | none =>
    have added : outcome = _ := registerIn_of_free taken source operation
    refine ⟨rfl, fun _ => ⟨?_, rfl, rfl⟩, fun held => absurd held Bool.false_ne_true⟩
    rw [added]
  | some held =>
    exact ⟨rfl, fun free => absurd free.symm Bool.false_ne_true, fun _ => ⟨rfl, rfl⟩⟩

/-- Spellings are interchangeable: names with the same words, each part of them in a style of its
own, are all folded to the words with underscores between them and dots between the parts. What is
registered under one of them is found under each other one, unless another entry was there. -/
theorem found_under_every_spelling (spelled other : List Part)
    (same : other.map Part.words = spelled.map Part.words) :
    canonical (spell spelled) = standard (spelled.map Part.words) ∧
    canonical (spell other) = canonical (spell spelled) ∧
    ∀ (registry : Registry) (source : String) (operation : Operation),
      let outcome := registry.registerIn source (spell spelled) operation
      outcome.registry.contains (spell other) = true ∧
      (registry.contains (spell other) = false → outcome.result = .ok true ∧
        outcome.registry.get? (spell other) = some operation ∧
        outcome.registry.sourceOf? (spell other) = some source) ∧
      (registry.contains (spell other) = true →
        outcome.registry.get? (spell other) = registry.get? (spell other) ∧
        outcome.registry.sourceOf? (spell other) = registry.sourceOf? (spell other)) := by
  have folded : canonical (spell other) = canonical (spell spelled) := by
    rw [canonical_spell, canonical_spell, same]
  exact ⟨canonical_spell spelled, folded, lookups_registerIn folded⟩

/-- A name of two parts, registered in two styles and looked up in two others. -/
theorem found_under_every_spelling_of_styles :
    let outcome := empty.registerIn "host" "httpTools.Get2Pages" Operation.log
    canonical "httpTools.Get2Pages" = "http_tools.get2_pages" ∧
      canonical "http tools.get2-pages" = "http_tools.get2_pages" ∧
      outcome.result = .ok true ∧
      outcome.registry.get? "http tools.get2-pages" = some Operation.log := by
  let http : Word := ⟨'h', "ttp".toList, by decide, by decide, List.all_eq_true.mp (by decide)⟩
  let tools : Word := ⟨'t', "ools".toList, by decide, by decide, List.all_eq_true.mp (by decide)⟩
  let get : Word := ⟨'g', "et2".toList, by decide, by decide, List.all_eq_true.mp (by decide)⟩
  let pages : Word := ⟨'p', "ages".toList, by decide, by decide, List.all_eq_true.mp (by decide)⟩
  let spelled : List Part := [⟨.camel, http, [tools]⟩, ⟨.pascal, get, [pages]⟩]
  let other : List Part := [⟨.spaced, http, [tools]⟩, ⟨.kebab, get, [pages]⟩]
  have first : spell spelled = "httpTools.Get2Pages" := by decide
  have second : spell other = "http tools.get2-pages" := by decide
  have one : standard (spelled.map Part.words) = "http_tools.get2_pages" := by decide
  have free : empty.contains "http tools.get2-pages" = false := rfl
  obtain ⟨folded, equal, lookups⟩ := found_under_every_spelling spelled other rfl
  rw [first, second] at equal lookups
  rw [first, one] at folded
  obtain ⟨-, added, -⟩ := lookups empty "host" Operation.log
  obtain ⟨accepted, found, -⟩ := added free
  exact ⟨folded, equal.trans folded, accepted, found⟩

end Registry

end Docscript

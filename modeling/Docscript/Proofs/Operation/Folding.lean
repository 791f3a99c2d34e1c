import Docscript.Operation.Name
import Docscript.Proofs.Text.LetterCase
import Mathlib.Data.List.DropRight

set_option autoImplicit false

namespace Docscript

namespace OperationName

open Text (isBlank isUppercase isLowercase lowercase)

variable {c : Char} {previous last : Option Char}

theorem isUppercase_eq_false_of_isDigit (digit : c.isDigit = true) : isUppercase c = false :=
  Text.inRanges_eq_false (by decide +kernel) (Text.inRanges_of_isDigit digit)

theorem plain_of_isSeparator (separates : isSeparator c = true) :
    isUppercase c = false ∧ isLowercase c = false ∧ c.isDigit = false := by
  simp only [isSeparator, Bool.or_eq_true, beq_iff_eq] at separates
  rcases separates with (rfl | rfl) | blank
  · decide
  · decide
  · refine ⟨?_, ?_, ?_⟩ <;> rw [Bool.eq_false_iff]
    · intro upper
      rw [Text.isBlank_eq_false_of_isUppercase upper] at blank
      cases blank
    · intro lower
      rw [Text.isBlank_eq_false_of_isLowercase lower] at blank
      cases blank
    · intro digit
      rw [Text.isBlank_eq_false_of_isDigit digit] at blank
      cases blank

theorem isSeparator_eq_false_of_isUppercase (upper : isUppercase c = true) :
    isSeparator c = false := by
  rw [Bool.eq_false_iff]
  intro separates
  rw [(plain_of_isSeparator separates).1] at upper
  cases upper

theorem isSeparator_eq_false_of_isLowercase (lower : isLowercase c = true) :
    isSeparator c = false := by
  rw [Bool.eq_false_iff]
  intro separates
  rw [(plain_of_isSeparator separates).2.1] at lower
  cases lower

theorem beginsWord_of_isSeparator (separates : isSeparator c = true) (next : Option Char) :
    beginsWord (some c) next = false := by
  obtain ⟨upper, lower, digit⟩ := plain_of_isSeparator separates
  simp [beginsWord, upper, lower, digit]

/-- An upper-case character that has no lower-case form. -/
def keepsCase (c : Char) : Bool := isUppercase c && lowercase c == [c]

theorem keepsCase_iff : keepsCase c = true ↔ isUppercase c = true ∧ lowercase c = [c] := by
  rw [keepsCase, Bool.and_eq_true, beq_iff_eq]

theorem not_keepsCase_of_lowers {p d : Char} (form : lowercase p = [d])
    (lower : isLowercase d = true) : keepsCase p = false := by
  rw [Bool.eq_false_iff, ne_eq, keepsCase_iff]
  rintro ⟨upper, own⟩
  rw [form, List.cons.injEq] at own
  rw [own.1, Text.isLowercase_eq_false_of_isUppercase upper] at lower
  cases lower

theorem lowercase_cases_of_isUppercase (upper : isUppercase c = true) :
    keepsCase c = true ∨ c = '\u0130' ∨
      ∃ d, lowercase c = [d] ∧ isLowercase d = true ∧ isUppercase d = false := by
  rcases Text.lowercase_cases c with dotted | own | ⟨d, form, lower⟩
  · exact .inr (.inl dotted)
  · exact .inl (keepsCase_iff.mpr ⟨upper, own⟩)
  · refine .inr (.inr ⟨d, form, lower, ?_⟩)
    rw [Bool.eq_false_iff]
    intro both
    rw [Text.isLowercase_eq_false_of_isUppercase both] at lower
    cases lower

/-- An upper-case character is written as characters that are neither separators nor dots, and that
are upper-case only if it keeps its case. -/
theorem of_mem_lowercase (upper : isUppercase c = true) {d : Char} (member : d ∈ lowercase c) :
    isSeparator d = false ∧ d ≠ '.' ∧ (isUppercase d = true → keepsCase c = true ∧ d = c) := by
  rcases lowercase_cases_of_isUppercase upper with keeps | rfl | ⟨form, written, lower, notUpper⟩
  · rw [(keepsCase_iff.mp keeps).2, List.mem_singleton] at member
    subst member
    refine ⟨isSeparator_eq_false_of_isUppercase upper, ?_, fun _ => ⟨keeps, rfl⟩⟩
    rintro rfl
    exact absurd upper (by decide)
  · change d ∈ ['i', '\u0307'] at member
    have forms : d = 'i' ∨ d = '\u0307' := by simpa using member
    rcases forms with rfl | rfl <;> decide
  · rw [written, List.mem_singleton] at member
    subst member
    refine ⟨isSeparator_eq_false_of_isLowercase lower, ?_, fun both => ?_⟩
    · rintro rfl
      exact absurd lower (by decide)
    · rw [notUpper] at both
      cases both

/-- The underscore between the last character and the next word. -/
def gap (last : Option Char) : List Char :=
  if last = none ∨ last = some '_' then [] else ['_']

/-- A part in the one style, after the character `previous` of the part and the character `last` of
what is written. -/
def folded (previous last : Option Char) : List Char → List Char
  | [] => []
  | c :: rest =>
    if isSeparator c then gap last ++ folded (some c) (last.map fun _ => '_') rest
    else if isUppercase c then
      (if beginsWord previous rest.head? then gap last else []) ++
        (lowercase c ++ folded (some c) (lowercase c).getLast? rest)
    else c :: folded (some c) (some c) rest

theorem separate_eq (done : List Char) : separate done = gap done.head? ++ done := by
  cases done with
  | nil => rfl
  | cons last rest =>
    by_cases underscore : last = '_' <;> simp [separate, gap, underscore]

theorem lowercase_ne_nil (c : Char) : lowercase c ≠ [] := by
  rcases Text.lowercase_cases c with rfl | own | ⟨d, form, -⟩
  · decide
  · simp [own]
  · simp [form]

theorem foldOnto_eq (previous : Option Char) (done text : List Char) :
    foldOnto previous done text = (folded previous done.head? text).reverse ++ done := by
  induction text generalizing previous done with
  | nil => rfl
  | cons c rest ih =>
    rw [foldOnto, folded]
    have turned : (gap done.head?).reverse = gap done.head? := by unfold gap; split <;> rfl
    split
    · have front : (separate done).head? = done.head?.map fun _ => '_' := by
        cases done with
        | nil => rfl
        | cons last others => by_cases underscore : last = '_' <;> simp [separate, underscore]
      rw [ih, front, separate_eq, List.reverse_append, turned, List.append_assoc]
    · split
      · have front (before : List Char) :
            ((lowercase c).reverse ++ before).head? = (lowercase c).getLast? := by
          rw [List.head?_append, List.head?_reverse]
          cases form : (lowercase c).getLast? with
          | none => exact absurd (List.getLast?_eq_none_iff.mp form) (lowercase_ne_nil c)
          | some d => rfl
        rw [ih, front, List.reverse_append, List.reverse_append]
        split
        · rw [separate_eq, turned]
          simp
        · simp
      · rw [ih, List.reverse_cons]
        simp

theorem foldPart_eq (part : List Char) :
    foldPart part = (folded none none part).rdropWhile (· == '_') := by
  rw [foldPart, foldOnto_eq, List.append_nil]
  rfl

/-- After an underscore, or where nothing is written, no gap is left. -/
theorem gap_eq_nil_or (last : Option Char) :
    gap last = [] ∧ (last.map fun _ => '_') = last ∨
      gap last = ['_'] ∧ (last.map fun _ => '_') = some '_' ∧ last ≠ none ∧ last ≠ some '_' := by
  cases last with
  | none => exact .inl ⟨rfl, rfl⟩
  | some c =>
    by_cases underscore : c = '_'
    · subst underscore
      exact .inl ⟨rfl, rfl⟩
    · exact .inr ⟨by simp [gap, underscore], rfl, by simp, by simp [underscore]⟩

theorem beginsWord_map_underscore (last next : Option Char) :
    beginsWord (last.map fun _ => '_') next = false := by
  cases last with
  | none => rfl
  | some c =>
    have separates : isSeparator '_' = true := by decide
    exact beginsWord_of_isSeparator separates next

/-- A text in the one style, after a character that is written: underscores are the only separators
and none of them is first or after another one, and no upper-case character has a lower-case form.
-/
def Styled (last : Option Char) : List Char → Prop
  | [] => True
  | c :: rest =>
    (isSeparator c = true → c = '_' ∧ last ≠ none ∧ last ≠ some '_') ∧
      (isUppercase c = true → lowercase c = [c]) ∧ Styled (some c) rest

theorem getLast?_cons_or (c : Char) (rest : List Char) (last : Option Char) :
    (c :: rest).getLast?.or last = rest.getLast?.or (some c) := by
  rw [List.getLast?_cons, Option.some_or, Option.or_some]

theorem styled_append {front text : List Char}
    (plain : ∀ c ∈ front, isSeparator c = false ∧ (isUppercase c = true → lowercase c = [c]))
    (styled : Styled (front.getLast?.or last) text) : Styled last (front ++ text) := by
  induction front generalizing last with
  | nil => simpa using styled
  | cons c rest ih =>
    obtain ⟨kept, own⟩ := plain c List.mem_cons_self
    rw [getLast?_cons_or] at styled
    exact ⟨fun separates => absurd (kept.symm.trans separates) (by decide), own,
      ih (fun d member => plain d (List.mem_cons_of_mem _ member)) styled⟩

theorem plain_of_mem_lowercase (upper : isUppercase c = true) {d : Char}
    (member : d ∈ lowercase c) :
    isSeparator d = false ∧ (isUppercase d = true → lowercase d = [d]) := by
  obtain ⟨letter, -, kept⟩ := of_mem_lowercase upper member
  refine ⟨letter, fun upper => ?_⟩
  obtain ⟨keeps, rfl⟩ := kept upper
  exact (keepsCase_iff.mp keeps).2

theorem styled_gap {text : List Char} (styled : Styled (last.map fun _ => '_') text) :
    Styled last (gap last ++ text) := by
  rcases gap_eq_nil_or last with ⟨none, same⟩ | ⟨one, underscore, some, apart⟩
  · rwa [none, ← same]
  · rw [one, List.singleton_append]
    rw [underscore] at styled
    exact ⟨fun _ => ⟨rfl, some, apart⟩, fun upper => absurd upper (by decide), styled⟩

theorem styled_folded (previous last : Option Char) (text : List Char) :
    Styled last (folded previous last text) := by
  induction text generalizing previous last with
  | nil => trivial
  | cons c rest ih =>
    rw [folded]
    split
    · exact styled_gap (ih _ _)
    · next kept =>
      split
      · next upper =>
        have form (before : Option Char) :
            Styled before (lowercase c ++ folded (some c) (lowercase c).getLast? rest) := by
          apply styled_append fun d member => plain_of_mem_lowercase upper member
          have some := List.getLast?_isSome.mpr (lowercase_ne_nil c)
          rw [Option.or_of_isSome some]
          exact ih _ _
        split
        · exact styled_gap (form _)
        · exact form _
      · next other =>
        exact ⟨fun separates => absurd separates kept, fun upper => absurd upper other, ih _ _⟩

/-- Whether no word begins at an upper-case character of a text, after a character of it. -/
def Unbroken (last : Option Char) : List Char → Prop
  | [] => True
  | c :: rest =>
    (isUppercase c = true → beginsWord last rest.head? = false) ∧ Unbroken (some c) rest

theorem folded_cons_of_styled {rest : List Char} (styled : Styled last (c :: rest)) :
    folded last last (c :: rest) =
      if isUppercase c = true ∧ beginsWord last rest.head? = true
      then '_' :: c :: folded (some c) (some c) rest else c :: folded (some c) (some c) rest := by
  obtain ⟨separator, own, -⟩ := styled
  rw [folded]
  split
  · next separates =>
    obtain ⟨rfl, some, apart⟩ := separator separates
    have lower : ¬isUppercase '_' = true := by decide
    rcases gap_eq_nil_or last with ⟨none, -⟩ | ⟨one, map, -⟩
    · simp [gap, some, apart] at none
    · rw [one, map, if_neg fun both => lower both.1, List.singleton_append]
  · split
    · next upper =>
      rw [own upper, List.getLast?_singleton]
      by_cases begins : beginsWord last rest.head? = true
      · rcases gap_eq_nil_or last with ⟨-, same⟩ | ⟨one, -⟩
        · rw [← same, beginsWord_map_underscore] at begins
          cases begins
        · rw [if_pos begins, if_pos ⟨upper, begins⟩, one]
          rfl
      · rw [if_neg begins, if_neg fun both => begins both.2]
        rfl
    · next lower => rw [if_neg fun both => lower both.1]

theorem folded_of_unbroken {text : List Char} (styled : Styled last text)
    (unbroken : Unbroken last text) : folded last last text = text := by
  induction text generalizing last with
  | nil => rfl
  | cons c rest ih =>
    obtain ⟨inside, onward⟩ := unbroken
    rw [folded_cons_of_styled styled, if_neg, ih styled.2.2 onward]
    rintro ⟨upper, begins⟩
    rw [inside upper] at begins
    cases begins

/-- No word begins in a text that is still at the start of what a folding writes for it: the
underscore would stand in the place of an upper-case character. -/
theorem unbroken_of_prefix {text : List Char} (styled : Styled last text)
    (kept : text <+: folded last last text) : Unbroken last text := by
  induction text generalizing last with
  | nil => trivial
  | cons c rest ih =>
    rw [folded_cons_of_styled styled] at kept
    split at kept
    · next both =>
      have underscore := (List.cons_prefix_cons.mp kept).1
      rw [underscore] at both
      exact absurd both.1 (by decide)
    · next stays =>
      refine ⟨fun upper => ?_, ih styled.2.2 (List.cons_prefix_cons.mp kept).2⟩
      rw [Bool.eq_false_iff]
      exact fun begins => stays ⟨upper, begins⟩

theorem styled_of_append {front text : List Char} (styled : Styled last (front ++ text)) :
    Styled last front := by
  induction front generalizing last with
  | nil => trivial
  | cons c rest ih => exact ⟨styled.1, styled.2.1, ih styled.2.2⟩

theorem unbroken_concat_underscore (last : Option Char) (text : List Char) :
    Unbroken last (text ++ ['_']) ↔ Unbroken last text := by
  induction text generalizing last with
  | nil =>
    have lower : isUppercase '_' = false := by decide
    simp [Unbroken, lower]
  | cons c rest ih =>
    rw [List.cons_append, Unbroken, Unbroken, ih]
    cases rest with
    | nil =>
      have next : beginsWord last ([] ++ ['_']).head? = beginsWord last none := by
        cases last with
        | none => rfl
        | some p =>
          have lower : isLowercase '_' = false := by decide
          simp [beginsWord, lower]
      rw [next, List.head?_nil]
    | cons d others => rw [List.cons_append, List.head?_cons, List.head?_cons]

theorem unbroken_rdropWhile (last : Option Char) (text : List Char) :
    Unbroken last (text.rdropWhile (· == '_')) ↔ Unbroken last text := by
  induction text using List.reverseRecOn with
  | nil => rfl
  | append_singleton text c ih =>
    rw [List.rdropWhile_concat]
    split
    · next underscore =>
      rw [beq_iff_eq] at underscore
      rw [underscore, unbroken_concat_underscore, ih]
    · rfl

theorem styled_foldPart (part : List Char) : Styled none (foldPart part) := by
  obtain ⟨underscores, whole⟩ := List.rdropWhile_prefix (· == '_') (folded none none part)
  have all := styled_folded none none part
  rw [← whole] at all
  rw [foldPart_eq]
  exact styled_of_append all

theorem foldPart_foldPart_iff_unbroken (part : List Char) :
    foldPart (foldPart part) = foldPart part ↔ Unbroken none (folded none none part) := by
  have styled := styled_foldPart part
  rw [← unbroken_rdropWhile, ← foldPart_eq]
  constructor
  · intro same
    apply unbroken_of_prefix styled
    rw [foldPart_eq] at same
    have start := List.rdropWhile_prefix (· == '_') (folded none none (foldPart part))
    rwa [same] at start
  · intro unbroken
    rw [foldPart_eq, folded_of_unbroken styled unbroken, foldPart_eq]
    exact List.rdropWhile_idempotent _ _

end OperationName

end Docscript

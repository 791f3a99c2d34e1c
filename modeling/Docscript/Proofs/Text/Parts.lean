import Docscript.Proofs.Text.Trimming

set_option autoImplicit false

namespace Docscript.Text

theorem eq_false_of_mem_splitOnP {separates : Char → Bool} {text part : List Char}
    (member : part ∈ text.splitOnP separates) : ∀ c ∈ part, separates c = false := by
  induction text generalizing part with
  | nil =>
    rw [List.splitOnP_nil, List.mem_singleton] at member
    simp [member]
  | cons c rest ih =>
    rw [List.splitOnP_cons_eq_if_modifyHead] at member
    obtain ⟨first, others, parts⟩ :=
      List.exists_cons_of_ne_nil (List.splitOnP_ne_nil separates rest)
    split at member
    · rcases List.mem_cons.mp member with rfl | later
      · simp
      · exact ih later
    · next kept =>
      rw [parts, List.modifyHead_cons] at member
      rcases List.mem_cons.mp member with rfl | later
      · have inner := ih (parts ▸ List.mem_cons_self)
        simpa [kept] using inner
      · exact ih (parts ▸ List.mem_cons_of_mem first later)

theorem not_mem_of_mem_splitOn {separator : Char} {text part : List Char}
    (member : part ∈ text.splitOn separator) : separator ∉ part := by
  rw [List.splitOn_eq_splitOnP] at member
  intro inside
  simpa using eq_false_of_mem_splitOnP member separator inside

theorem mem_of_mem_splitOn {separator c : Char} {text part : List Char}
    (member : part ∈ text.splitOn separator) (inside : c ∈ part) : c ∈ text := by
  induction text generalizing part with
  | nil =>
    rw [List.splitOn_nil, List.mem_singleton] at member
    rwa [member] at inside
  | cons d rest ih =>
    obtain ⟨first, others, parts⟩ := List.exists_cons_of_ne_nil (List.splitOn_ne_nil separator rest)
    rw [List.splitOn_cons_eq_if_modifyHead] at member
    split at member
    · rcases List.mem_cons.mp member with rfl | later
      · cases inside
      · exact List.mem_cons_of_mem d (ih later inside)
    · rw [parts, List.modifyHead_cons] at member
      rw [parts] at ih
      rcases List.mem_cons.mp member with rfl | later
      · rcases List.mem_cons.mp inside with rfl | within
        · exact List.mem_cons_self
        · exact List.mem_cons_of_mem d (ih List.mem_cons_self within)
      · exact List.mem_cons_of_mem d (ih (List.mem_cons_of_mem first later) inside)

theorem not_mem_of_mem_dottedParts {text part : List Char} (member : part ∈ dottedParts text) :
    '.' ∉ part :=
  not_mem_of_mem_splitOn (List.mem_filter.mp member).1

theorem isBlank_of_mem_words {text word : List Char} (member : word ∈ words text) :
    ∀ c ∈ word, isBlank c = false :=
  eq_false_of_mem_splitOnP (List.mem_filter.mp member).1

theorem ne_nil_of_mem_words {text word : List Char} (member : word ∈ words text) : word ≠ [] := by
  simpa using (List.mem_filter.mp member).2

theorem words_append_cons {blank : Char} (parts : isBlank blank = true) (before after : List Char) :
    words (before ++ blank :: after) = words before ++ words after := by
  rw [words, List.splitOnP_append_cons before after parts, List.filter_append]
  rfl

theorem words_of_not_blank {word : List Char} (nonempty : word ≠ [])
    (plain : ∀ c ∈ word, isBlank c = false) : words word = [word] := by
  rw [words, List.splitOnP_eq_singleton plain, List.filter_cons_of_pos (by simpa using nonempty),
    List.filter_nil]

theorem words_trim (text : List Char) : words (trim text) = words text := by
  have front : words (trimStart text) = words text := by
    induction text with
    | nil => rfl
    | cons c rest ih =>
      rw [trimStart, List.dropWhile_cons]
      split
      · next blank => exact ih.trans (words_append_cons blank [] rest).symm
      · rfl
  have back (text : List Char) : words (trimEnd text) = words text := by
    induction text using List.reverseRecOn with
    | nil => rfl
    | append_singleton text c ih =>
      rw [trimEnd_concat]
      split
      · next blank =>
        have nothing : words [] = [] := rfl
        rw [ih, words_append_cons blank, nothing, List.append_nil]
      · rfl
  rw [trim, back, front]

/-- The first word stands at the start of a text, after blanks, and a blank follows it unless the
text ends there. -/
theorem exists_of_words_eq_cons {text word : List Char} {others : List (List Char)}
    (first : words text = word :: others) :
    ∃ rest, trimStart text = word ++ rest ∧ words rest = others ∧
      ∀ c ∈ rest.head?, isBlank c = true := by
  induction text with
  | nil => cases first
  | cons c tail ih =>
    cases blank : isBlank c with
    | true =>
      have same : words (c :: tail) = words tail := words_append_cons blank [] tail
      rw [trimStart, List.dropWhile_cons_of_pos blank]
      exact ih (same.symm.trans first)
    | false =>
      have start : trimStart (c :: tail) = c :: tail := by
        rw [trimStart, List.dropWhile_cons_of_neg (by simp [blank])]
      let front := (c :: tail).takeWhile (!isBlank ·)
      have nonempty : front ≠ [] := by simp [front, blank]
      have plain : ∀ d ∈ front, isBlank d = false := fun d member => by
        simpa using List.mem_takeWhile_imp member
      have whole : front ++ (c :: tail).dropWhile (!isBlank ·) = c :: tail :=
        List.takeWhile_append_dropWhile
      rw [start, ← whole]
      rw [← whole] at first
      cases rest : (c :: tail).dropWhile (!isBlank ·) with
      | nil =>
        rw [rest, List.append_nil, words_of_not_blank nonempty plain, List.cons.injEq] at first
        exact ⟨[], by rw [first.1], first.2, by simp⟩
      | cons d after =>
        have ends : isBlank d = true := by
          have stopped := List.head?_dropWhile_not (!isBlank ·) (c :: tail)
          simpa [rest] using stopped
        rw [rest, words_append_cons ends, words_of_not_blank nonempty plain, List.singleton_append,
          List.cons.injEq] at first
        refine ⟨d :: after, by rw [first.1], ?_, ?_⟩
        · rw [← first.2]
          exact words_append_cons ends [] after
        · intro e same
          cases same
          exact ends

/-- Words with one blank between them are the words of the whole. -/
theorem words_intercalate {row : List (List Char)}
    (plain : ∀ word ∈ row, word ≠ [] ∧ ∀ c ∈ word, isBlank c = false) :
    words ([' '].intercalate row) = row := by
  induction row with
  | nil => rfl
  | cons word rest ih =>
    rw [List.forall_mem_cons] at plain
    obtain ⟨⟨nonempty, unbroken⟩, others⟩ := plain
    have own := words_of_not_blank nonempty unbroken
    cases rest with
    | nil => rw [List.intercalate_singleton, own]
    | cons second tail =>
      have blank : isBlank ' ' = true := by decide
      rw [List.intercalate_cons_cons, List.append_assoc, List.singleton_append,
        words_append_cons blank, own, ih others]
      rfl

section SplitOn

variable {separator c : Char}

theorem splitOn_cons_of_ne (letter : c ≠ separator) (text : List Char) :
    (c :: text).splitOn separator = (text.splitOn separator).modifyHead (c :: ·) := by
  rw [List.splitOn_cons_eq_if_modifyHead, if_neg (by simpa using letter)]

theorem splitOn_concat (letter : c ≠ separator) (text : List Char) :
    ∃ front part, text.splitOn separator = front ++ [part] ∧
      (text ++ [c]).splitOn separator = front ++ [part ++ [c]] := by
  induction text with
  | nil => exact ⟨[], [], rfl, splitOn_cons_of_ne letter []⟩
  | cons d rest ih =>
    obtain ⟨front, part, before, after⟩ := ih
    by_cases separates : d = separator
    · have first (others : List Char) :
          (d :: others).splitOn separator = [] :: others.splitOn separator := by
        rw [separates]
        exact List.splitOn_append_cons_self [] others
      exact ⟨[] :: front, part, by rw [first, before]; rfl,
        by rw [List.cons_append, first, after]; rfl⟩
    · rw [List.cons_append, splitOn_cons_of_ne separates, splitOn_cons_of_ne separates, before,
        after]
      cases front with
      | nil => exact ⟨[], d :: part, rfl, rfl⟩
      | cons first others => exact ⟨(d :: first) :: others, part, rfl, rfl⟩

end SplitOn

theorem intercalate_append (separator : List Char) {front rest : List (List Char)}
    (some : front ≠ []) (more : rest ≠ []) :
    separator.intercalate (front ++ rest) =
      separator.intercalate front ++ separator ++ separator.intercalate rest := by
  induction front with
  | nil => exact absurd rfl some
  | cons first others ih =>
    cases others with
    | nil =>
      rw [List.singleton_append, List.intercalate_cons_of_ne_nil more, List.intercalate_singleton]
    | cons second tail =>
      have onward := ih (List.cons_ne_nil second tail)
      rw [List.cons_append] at onward
      rw [List.cons_append, List.cons_append, List.intercalate_cons_cons, onward,
        List.intercalate_cons_cons]
      simp only [List.append_assoc]

end Docscript.Text

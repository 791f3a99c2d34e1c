import Docscript.Proofs.Expression.Parsing
import Docscript.Proofs.Expression.Scanning
import Docscript.Proofs.Steps

set_option autoImplicit false

namespace Docscript

namespace Token

/-- A character that ends a bare word. -/
def EndsWord (c : Char) : Prop := Text.isBlank c = true ∨ c = '(' ∨ c = ')'

variable {joint : Char} {after : List Char} {further : Except ExpressionFault (List Token)}

theorem scanWord_cons_of_endsWord (ends : EndsWord joint) (pending rest : List Char) :
    scanWord pending (joint :: rest) =
      (scan (joint :: rest)).map (ofWord (String.ofList pending.reverse) :: ·) := by
  rw [scanWord, scan]
  rcases ends with blank | rfl | rfl
  · rw [if_pos blank, if_pos blank]
    rfl
  · cases scan rest <;> rfl
  · cases scan rest <;> rfl

theorem scanWord_cons_of_not_endsWord {c : Char} (inside : ¬ EndsWord c)
    (pending rest : List Char) : scanWord pending (c :: rest) = scanWord (c :: pending) rest := by
  rw [EndsWord, not_or, not_or] at inside
  rw [scanWord, if_neg inside.1, if_neg inside.2.1, if_neg inside.2.2]

theorem scanQuoted_cons_of_ne {c : Char} (plain : c ≠ '\\') (quote : Char)
    (pending rest : List Char) :
    scanQuoted quote pending (c :: rest) =
      if c = quote then (scan rest).map (.quoted (String.ofList pending.reverse) :: ·)
      else scanQuoted quote (c :: pending) rest := by
  rw [scanQuoted]
  · rfl
  · intro _ _ same _
    exact plain same

theorem map_cons_append (token : Token) (tokens : List Token) :
    (further.map (tokens ++ ·)).map (token :: ·) = further.map (token :: tokens ++ ·) := by
  cases further <;> rfl

mutual

theorem scan_append_joint (ends : EndsWord joint) :
    ∀ (text : List Char) (tokens : List Token), scan text = .ok tokens →
      scan (text ++ joint :: after) = (scan (joint :: after)).map (tokens ++ ·)
  | [], tokens, scanned => by
    cases scanned
    rw [List.nil_append]
    cases scan (joint :: after) <;> rfl
  | c :: rest, tokens, scanned => by
    rw [List.cons_append, scan]
    rw [scan] at scanned
    split at scanned
    · next blank => rw [if_pos blank, scan_append_joint ends rest tokens scanned]
    · next solid =>
      rw [if_neg solid]
      split at scanned
      · next opens =>
        obtain ⟨others, later, rfl⟩ := Steps.of_map_eq_ok scanned
        rw [if_pos opens, scan_append_joint ends rest others later]
        exact map_cons_append _ _
      · next inside =>
        rw [if_neg inside]
        split at scanned
        · next closes =>
          obtain ⟨others, later, rfl⟩ := Steps.of_map_eq_ok scanned
          rw [if_pos closes, scan_append_joint ends rest others later]
          exact map_cons_append _ _
        · next unclosed =>
          rw [if_neg unclosed]
          split at scanned
          · next quotes =>
            have plain : c ≠ '\\' := by rcases quotes with rfl | rfl <;> decide
            rw [if_pos quotes, scanQuoted_append_joint ends c plain [] rest tokens scanned]
          · next bare => rw [if_neg bare, scanWord_append_joint ends [c] rest tokens scanned]
termination_by text => (text.length, 0)

theorem scanWord_append_joint (ends : EndsWord joint) :
    ∀ (pending text : List Char) (tokens : List Token), scanWord pending text = .ok tokens →
      scanWord pending (text ++ joint :: after) = (scan (joint :: after)).map (tokens ++ ·)
  | pending, [], tokens, scanned => by
    cases scanned
    exact scanWord_cons_of_endsWord ends pending after
  | pending, c :: rest, tokens, scanned => by
    by_cases stops : EndsWord c
    · rw [scanWord_cons_of_endsWord stops] at scanned
      obtain ⟨others, later, rfl⟩ := Steps.of_map_eq_ok scanned
      have onward := scan_append_joint ends (c :: rest) others later
      rw [List.cons_append] at onward ⊢
      rw [scanWord_cons_of_endsWord stops, onward, map_cons_append]
    · rw [scanWord_cons_of_not_endsWord stops] at scanned
      rw [List.cons_append, scanWord_cons_of_not_endsWord stops]
      exact scanWord_append_joint ends (c :: pending) rest tokens scanned
termination_by _ text => (text.length, 1)

theorem scanQuoted_append_joint (ends : EndsWord joint) :
    ∀ (quote : Char), quote ≠ '\\' → ∀ (pending text : List Char) (tokens : List Token),
      scanQuoted quote pending text = .ok tokens →
        scanQuoted quote pending (text ++ joint :: after) =
          (scan (joint :: after)).map (tokens ++ ·)
  | quote, plain, pending, [], tokens, scanned => by cases scanned
  | quote, plain, pending, c :: rest, tokens, scanned => by
    by_cases escape : c = '\\'
    · subst escape
      cases rest with
      | nil =>
        rw [scanQuoted, if_neg (Ne.symm plain)] at scanned
        · cases scanned
        · intro _ _ _ more
          cases more
      | cons taken rest =>
        rw [scanQuoted] at scanned
        exact scanQuoted_append_joint ends quote plain (taken :: pending) rest tokens scanned
    · rw [scanQuoted_cons_of_ne escape] at scanned
      rw [List.cons_append, scanQuoted_cons_of_ne escape]
      split at scanned
      · next closes =>
        obtain ⟨others, later, rfl⟩ := Steps.of_map_eq_ok scanned
        rw [if_pos closes, scan_append_joint ends rest others later, map_cons_append]
      · next open_ =>
        rw [if_neg open_]
        exact scanQuoted_append_joint ends quote plain (c :: pending) rest tokens scanned
termination_by _ _ _ text => (text.length, 0)

end

variable {c : Char}

mutual

theorem scan_append_blank (blank : Text.isBlank c = true) :
    ∀ text : List Char, scan (text ++ [c]) = scan text
  | [] => by simp only [List.nil_append, scan, if_pos blank]
  | first :: rest => by
    rw [List.cons_append, scan, scan, scan_append_blank blank rest]
    split
    · rfl
    · split
      · rfl
      · split
        · rfl
        · split
          · next quotes => exact scanQuoted_append_blank blank first quotes [] rest
          · exact scanWord_append_blank blank [first] rest
termination_by text => (text.length, 0)

theorem scanWord_append_blank (blank : Text.isBlank c = true) :
    ∀ pending text : List Char, scanWord pending (text ++ [c]) = scanWord pending text
  | pending, [] => by
    rw [List.nil_append, scanWord_cons_of_endsWord (.inl blank), scan, if_pos blank]
    rfl
  | pending, first :: rest => by
    rw [List.cons_append]
    by_cases stops : EndsWord first
    · have same := scan_append_blank blank (first :: rest)
      rw [List.cons_append] at same
      rw [scanWord_cons_of_endsWord stops, scanWord_cons_of_endsWord stops, same]
    · rw [scanWord_cons_of_not_endsWord stops, scanWord_cons_of_not_endsWord stops,
        scanWord_append_blank blank (first :: pending) rest]
termination_by _ text => (text.length, 1)

theorem scanQuoted_append_blank (blank : Text.isBlank c = true) :
    ∀ quote : Char, quote = '\'' ∨ quote = '"' → ∀ pending text : List Char,
      scanQuoted quote pending (text ++ [c]) = scanQuoted quote pending text
  | quote, quotes, pending, [] => by
    have plain : c ≠ '\\' := by
      rintro rfl
      exact absurd blank (by decide)
    have open_ : c ≠ quote := by
      rintro rfl
      rcases quotes with rfl | rfl <;> exact absurd blank (by decide)
    rw [List.nil_append, scanQuoted_cons_of_ne plain, if_neg open_, scanQuoted, scanQuoted]
  | quote, quotes, pending, first :: rest => by
    have plain : '\\' ≠ quote := by rcases quotes with rfl | rfl <;> decide
    rw [List.cons_append]
    by_cases escape : first = '\\'
    · subst escape
      cases rest with
      | nil =>
        rw [List.nil_append, scanQuoted, scanQuoted, scanQuoted, if_neg plain, scanQuoted]
        intro _ _ _ more
        cases more
      | cons taken rest =>
        rw [List.cons_append, scanQuoted, scanQuoted]
        exact scanQuoted_append_blank blank quote quotes (taken :: pending) rest
    · rw [scanQuoted_cons_of_ne escape, scanQuoted_cons_of_ne escape, scan_append_blank blank rest]
      split
      · rfl
      · exact scanQuoted_append_blank blank quote quotes (first :: pending) rest
termination_by _ _ _ text => (text.length, 0)

end

theorem scan_trimEnd (text : List Char) : scan (Text.trimEnd text) = scan text := by
  induction text using List.reverseRecOn with
  | nil => rfl
  | append_singleton text c ih =>
    rw [Text.trimEnd_concat]
    split
    · next blank => rw [scan_append_blank blank text, ih]
    · rfl

theorem scan_trim (text : List Char) : scan (Text.trim text) = scan text := by
  rw [Text.trim, scan_trimEnd, scan_trimStart]

end Token

namespace Expression

variable {source text : List Char} {tokens : List Token} {one : Expression}

theorem scan_withoutIf_of_not_startsWithIf (other : ¬ StartsWithIf (Text.trim source)) :
    Token.scan (withoutIf source) = Token.scan source := by
  have same : withoutIf source = withoutIf (Text.trim source) := by
    rw [withoutIf, withoutIf, Text.trim_trim]
  rw [same, withoutIf_of_not_startsWithIf (Text.trim_trim source) other, Token.scan_trim]

theorem scan_withoutIf_lead (rest : List Char) :
    Token.scan (withoutIf ("if ".toList ++ rest)) = Token.scan rest := by
  have start : Text.trimStart ("if ".toList ++ rest) = "if ".toList ++ rest := rfl
  have stop := Text.trimEnd_append "if ".toList rest
  rw [← Token.scan_trimEnd rest]
  split at stop
  · next nothing =>
    have alone : Text.trim ("if ".toList ++ rest) = "if".toList := by
      rw [Text.trim, start, stop]
      decide
    rw [withoutIf, alone, nothing]
    rfl
  · next something =>
    have lead : Text.trim ("if ".toList ++ rest) = "if ".toList ++ Text.trimEnd rest := by
      rw [Text.trim, start, stop]
    rw [withoutIf_of_lead lead, Token.scan_trimStart]

/-- A text starts with `if` if these letters come first and nothing or a blank follows them. -/
theorem startsWithIf_trim_iff :
    StartsWithIf (Text.trim source) ↔
      ∃ tail, Text.trimStart source = "if".toList ++ tail ∧
        (Text.trimEnd tail = [] ∨ tail.head? = some ' ') := by
  constructor
  · intro starts
    obtain ⟨blanks, whole⟩ : Text.trim source <+: Text.trimStart source :=
      List.rdropWhile_prefix Text.isBlank (Text.trimStart source)
    rcases starts with alone | ⟨rest, lead⟩
    · rw [alone] at whole
      refine ⟨blanks, whole.symm, .inl ?_⟩
      have stop := Text.trimEnd_append "if".toList blanks
      rw [whole, ← Text.trim, alone] at stop
      split at stop
      · assumption
      · simpa using stop
    · rw [← lead] at whole
      exact ⟨' ' :: (rest ++ blanks), by rw [← whole]; rfl, .inr rfl⟩
  · rintro ⟨tail, whole, goesOn⟩
    have stop := Text.trimEnd_append "if".toList tail
    rw [← whole, ← Text.trim] at stop
    split at stop
    · exact .inl stop
    · next something =>
      obtain ⟨rest, rfl⟩ := List.head?_eq_some_iff.mp (goesOn.resolve_left something)
      have kept := Text.trimEnd_append [' '] rest
      rw [List.singleton_append] at kept
      rw [stop]
      split at kept
      · exact absurd kept something
      · exact .inr ⟨Text.trimEnd rest, by rw [kept]; rfl⟩

theorem reads_of_parse {source : String} (parsed : parse source = .ok one)
    (plain : ¬ "if ".toList <+: Text.trim source.toList) :
    ∃ tokens, Token.scan source.toList = .ok tokens ∧ Derives tokens one ∧
      ¬ StartsWithIf (Text.trim source.toList) := by
  have other : ¬ StartsWithIf (Text.trim source.toList) := by
    rintro (alone | lead)
    · rw [parse_eq, withoutIf, alone] at parsed
      cases parsed
    · exact plain lead
  rw [parse_eq, scan_withoutIf_of_not_startsWithIf other] at parsed
  cases read : (Token.scan source.toList).bind ofTokens with
  | error fault =>
    rw [read] at parsed
    cases parsed
  | ok found =>
    rw [read] at parsed
    cases parsed
    obtain ⟨tokens, scanned, formed⟩ := Steps.of_bind_eq_ok read
    exact ⟨tokens, scanned, (ofTokens_eq_ok_iff tokens one).mp formed, other⟩

/-- A text that does not start with `if` is the condition of its tokens, with or without an `if` in
front. -/
theorem parse_of_reads {source : String} (scanned : Token.scan source.toList = .ok tokens)
    (formed : Derives tokens one) (other : ¬ StartsWithIf (Text.trim source.toList)) :
    ∀ lead ∈ ["", "if "], parse (lead ++ source) = .ok one := by
  have read {source : String} (scanned : Token.scan (withoutIf source.toList) = .ok tokens) :
      parse source = .ok one := by
    rw [parse_of_scan scanned, (ofTokens_eq_ok_iff tokens one).mpr formed]
    rfl
  rw [List.forall_mem_cons, List.forall_mem_singleton]
  constructor
  · apply read
    rw [String.empty_append, scan_withoutIf_of_not_startsWithIf other, scanned]
  · apply read
    rw [String.toList_append, scan_withoutIf_lead, scanned]

/-- More text after a blank makes no `if` of the start of a text. -/
theorem not_startsWithIf_append (other : ¬ StartsWithIf (Text.trim text))
    (something : Text.trimStart text ≠ []) (further : List Char) :
    ¬ StartsWithIf (Text.trim (text ++ ' ' :: further)) := by
  rw [startsWithIf_trim_iff] at other ⊢
  rintro ⟨tail, whole, goesOn⟩
  have start : Text.trimStart (text ++ ' ' :: further) = Text.trimStart text ++ ' ' :: further := by
    rw [Text.trimStart, List.dropWhile_append, if_neg (by rwa [List.isEmpty_iff])]
    rfl
  rw [start] at whole
  rcases front : Text.trimStart text with _ | ⟨first, _ | ⟨second, rest⟩⟩
  · exact something front
  · simp [front] at whole
  · rw [front, List.cons_append, List.cons_append] at whole
    obtain ⟨rfl, rfl, rfl⟩ : first = 'i' ∧ second = 'f' ∧ rest ++ ' ' :: further = tail := by
      simpa using whole
    refine other ⟨rest, front, ?_⟩
    rcases goesOn with blanks | blank
    · have stop := Text.trimEnd_append rest (' ' :: further)
      rw [blanks] at stop
      split at stop
      · exact .inl stop.symm
      · next something => exact absurd (List.append_eq_nil_iff.mp stop.symm).2 something
    · cases rest with
      | nil => exact .inl rfl
      | cons c rest => exact .inr blank

theorem not_startsWithIf_cons {c : Char} (solid : Text.isBlank c = false) (other : c ≠ 'i')
    (rest : List Char) : ¬ StartsWithIf (Text.trim (c :: rest)) := by
  rw [startsWithIf_trim_iff]
  rintro ⟨tail, whole, -⟩
  rw [Text.trimStart, List.dropWhile_cons_of_neg (by simp [solid])] at whole
  exact other (List.cons.inj whole).1

theorem trimStart_ne_nil (scanned : Token.scan text = .ok tokens) (formed : Derives tokens one) :
    Text.trimStart text ≠ [] := by
  intro nothing
  rw [← Token.scan_trimStart, nothing, Token.scan] at scanned
  cases scanned
  rw [← ofTokens_eq_ok_iff] at formed
  cases formed

end Expression

end Docscript

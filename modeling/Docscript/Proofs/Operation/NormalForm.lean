import Docscript.Proofs.Operation.Names

set_option autoImplicit false

namespace Docscript

namespace OperationName

open Text (isBlank isUppercase lowercase)

variable {c : Char} {last : Option Char} {part front rest : List Char}

/-- A part of a name in normal form. -/
structure Normal (part : List Char) : Prop where
  blankless : ∀ c ∈ part, isBlank c = false
  dashless : '-' ∉ part
  opens : part.head? ≠ some '_'
  closes : part.getLast? ≠ some '_'
  single : ¬ ['_', '_'] <:+: part
  lowered : ∀ c ∈ part, c.isUpper = false

/-- What comes after a front of a styled text is styled after the last character of that front. -/
theorem Styled.of_append (styled : Styled last (front ++ rest)) :
    Styled (front.getLast?.or last) rest := by
  induction front generalizing last with
  | nil => simpa using styled
  | cons c others ih =>
    rw [getLast?_cons_or]
    exact ih styled.2.2

theorem Styled.underscore (styled : Styled none (front ++ c :: rest))
    (separates : isSeparator c = true) :
    c = '_' ∧ front.getLast? ≠ none ∧ front.getLast? ≠ some '_' := by
  have here := styled.of_append.1 separates
  rwa [Option.or_none] at here

/-- Capital letters are upper-case characters that have a lower-case form. -/
theorem not_isUpper_of_lowercase_eq (own : isUppercase c = true → lowercase c = [c]) :
    c.isUpper = false := by
  rw [Bool.eq_false_iff]
  intro capital
  have upper : c.val ≤ 'Z'.val := (of_decide_eq_true capital).2
  have ascii : c.toNat < 128 :=
    Nat.lt_of_le_of_lt (UInt32.le_iff_toNat_le.mp upper) (by decide)
  have forms : c.isUpper = true → isUppercase c = true ∧ lowercase c ≠ [c] :=
    Text.ascii_induction (by decide +kernel) c ascii
  exact (forms capital).2 (own (forms capital).1)

theorem Styled.normal (styled : Styled none part) (closes : part.getLast? ≠ some '_') :
    Normal part := by
  have inside (c : Char) (member : c ∈ part) :
      (isSeparator c = true → c = '_') ∧ (isUppercase c = true → lowercase c = [c]) := by
    obtain ⟨front, rest, rfl⟩ := List.append_of_mem member
    exact ⟨fun separates => (styled.underscore separates).1, styled.of_append.2.1⟩
  refine ⟨fun c member => ?_, fun member => ?_, fun first => ?_, closes, fun double => ?_,
    fun c member => not_isUpper_of_lowercase_eq (inside c member).2⟩
  · rw [Bool.eq_false_iff]
    intro blank
    rw [(inside c member).1 (isSeparator_of_isBlank blank)] at blank
    exact absurd blank (by decide)
  · exact absurd ((inside '-' member).1 (by decide)) (by decide)
  · obtain ⟨rest, rfl⟩ := List.head?_eq_some_iff.mp first
    exact (styled.1 (by decide)).2.1 rfl
  · obtain ⟨before, after, rfl⟩ := double
    have whole : before ++ ['_', '_'] ++ after = (before ++ ['_']) ++ '_' :: after := by simp
    rw [whole] at styled
    exact (styled.underscore (by decide)).2.2 List.getLast?_concat

theorem normal_foldPart (part : List Char) : Normal (foldPart part) := by
  apply (styled_foldPart part).normal
  rw [foldPart_eq]
  intro underscore
  have nonempty : (folded none none part).rdropWhile (· == '_') ≠ [] := by
    intro empty
    rw [empty] at underscore
    cases underscore
  rw [List.getLast?_eq_some_getLast nonempty, Option.some.injEq] at underscore
  exact List.rdropWhile_last_not _ _ nonempty (beq_iff_eq.mpr underscore)

theorem styled_of_single (opens : part.head? = some '_' → last ≠ none ∧ last ≠ some '_')
    (underscores : ∀ c ∈ part, isSeparator c = true → c = '_') (single : ¬ ['_', '_'] <:+: part)
    (lowered : ∀ c ∈ part, isUppercase c = false) : Styled last part := by
  induction part generalizing last with
  | nil => trivial
  | cons c rest ih =>
    rw [List.forall_mem_cons] at underscores lowered
    have apart : rest.head? = some '_' → some c ≠ none ∧ some c ≠ some '_' := by
      refine fun next => ⟨Option.some_ne_none c, fun same => single ?_⟩
      obtain ⟨others, rfl⟩ := List.head?_eq_some_iff.mp next
      cases same
      exact ⟨[], others, rfl⟩
    have later : ¬ ['_', '_'] <:+: rest := fun double => single (List.infix_cons double)
    refine ⟨fun separates => ?_, fun upper => ?_, ih apart underscores.2 later lowered.2⟩
    · have same := underscores.1 separates
      exact ⟨same, opens (congrArg some same)⟩
    · rw [lowered.1] at upper
      cases upper

theorem foldPart_of_normal (normal : Normal part) (lowered : ∀ c ∈ part, isUppercase c = false) :
    foldPart part = part := by
  have underscores : ∀ c ∈ part, isSeparator c = true → c = '_' := by
    intro c member separates
    simp only [isSeparator, Bool.or_eq_true, beq_iff_eq] at separates
    rcases separates with (rfl | underscore) | blank
    · exact absurd member normal.dashless
    · exact underscore
    · rw [normal.blankless c member] at blank
      cases blank
  have styled : Styled none part :=
    styled_of_single (fun first => absurd first normal.opens) underscores normal.single lowered
  have unbroken : Unbroken none part := by
    have whole : Unbroken none (part ++ []) := (unbroken_append_of_plain lowered).mpr trivial
    rwa [List.append_nil] at whole
  rw [foldPart_eq, folded_of_unbroken styled unbroken, List.rdropWhile_eq_self_iff]
  intro nonempty underscore
  apply normal.closes
  rw [List.getLast?_eq_some_getLast nonempty, beq_iff_eq.mp underscore]

theorem normal_of_mem_canonical {name : String}
    (member : part ∈ (canonical name).toList.splitOn '.') : Normal part := by
  rw [canonical, String.toList_ofList, splitOn_canonicalChars] at member
  obtain ⟨origin, -, rfl⟩ := List.mem_map.mp member
  exact normal_foldPart origin

theorem canonical_eq_self_iff {name : String}
    (lowered : ∀ c ∈ name.toList, isUppercase c = false) :
    canonical name = name ↔ ∀ part ∈ name.toList.splitOn '.', Normal part := by
  constructor
  · intro same part member
    rw [← same] at member
    exact normal_of_mem_canonical member
  · intro each
    have fixed : foldedParts name.toList = name.toList.splitOn '.' := by
      have own := List.map_id (name.toList.splitOn '.')
      rw [foldedParts]
      refine (List.map_congr_left fun part member => ?_).trans own
      have inside : ∀ c ∈ part, isUppercase c = false :=
        fun c within => lowered c (Text.mem_of_mem_splitOn member within)
      exact foldPart_of_normal (each part member) inside
    rw [canonical, canonicalChars_eq, fixed, List.intercalate_splitOn, String.ofList_toList]

/-- Names in the one style. Each of their parts is in normal form, and the two sides of a dot are
folded apart. A name without upper-case characters whose parts are in normal form is left alone. -/
theorem canonical_normal :
    (∀ name : String, ∀ part ∈ (canonical name).toList.splitOn '.', Normal part) ∧
    (∀ name other : String,
      canonical (name ++ "." ++ other) = canonical name ++ "." ++ canonical other) ∧
    ∀ name : String, (∀ c ∈ name.toList, isUppercase c = false) →
      (canonical name = name ↔ ∀ part ∈ name.toList.splitOn '.', Normal part) := by
  exact ⟨fun _ _ => normal_of_mem_canonical, canonical_append, fun _ => canonical_eq_self_iff⟩

/-- A part between blanks and separators, two of them in a row, and a name that is left alone. -/
theorem canonical_normal_of_padded :
    "x.get_json_data".toList.splitOn '.' = ["x".toList, "get_json_data".toList] ∧
      (canonical " -X.getJSON-_data_\t").toList.splitOn '.' =
        ["x".toList, "get_json_data".toList] ∧
      canonical (" -X" ++ "." ++ "getJSON-_data_\t") = "x" ++ "." ++ "get_json_data" ∧
      Normal "get_json_data".toList ∧
      (∀ c ∈ "x.get_json_data".toList, isUppercase c = false) ∧
      canonical "x.get_json_data" = "x.get_json_data" := by
  obtain ⟨normal, splits, fixed⟩ := canonical_normal
  have parts : "x.get_json_data".toList.splitOn '.' = ["x".toList, "get_json_data".toList] := by
    decide
  have first : canonical " -X" = "x" := by decide +kernel
  have second : canonical "getJSON-_data_\t" = "get_json_data" := by decide +kernel
  have whole : canonical (" -X" ++ "." ++ "getJSON-_data_\t") = "x" ++ "." ++ "get_json_data" := by
    rw [splits, first, second]
  have folded : (canonical " -X.getJSON-_data_\t").toList.splitOn '.' =
      ["x".toList, "get_json_data".toList] := by
    rw [← parts]
    exact congrArg (·.toList.splitOn '.') whole
  have each : ∀ part ∈ "x.get_json_data".toList.splitOn '.', Normal part := by
    rw [parts, ← folded]
    exact normal _
  have none : "x.get_json_data".toList.any isUppercase = false := by decide
  have lowered : ∀ c ∈ "x.get_json_data".toList, isUppercase c = false := by
    simpa using List.any_eq_false.mp none
  exact ⟨parts, folded, whole, each _ (by rw [parts]; simp), lowered,
    (fixed _ lowered).mpr each⟩

end OperationName

end Docscript

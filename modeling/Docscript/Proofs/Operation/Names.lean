import Docscript.Operation.Name
import Docscript.Proofs.Operation.Refolding
import Docscript.Proofs.Text.Parts
import Docscript.Proofs.Text.Trimming

set_option autoImplicit false

namespace Docscript

namespace OperationName

open Text (isBlank isUppercase isLowercase lowercase)

variable {c : Char} {previous last : Option Char} {part text : List Char}

theorem folded_after_separator (separates : isSeparator c = true) (last : Option Char)
    (text : List Char) : folded (some c) last text = folded none last text := by
  cases text with
  | nil => rfl
  | cons d rest => rw [folded, folded, beginsWord_of_isSeparator separates, beginsWord]

theorem foldPart_cons (separates : isSeparator c = true) (part : List Char) :
    foldPart (c :: part) = foldPart part := by
  have gapless : gap none = [] := rfl
  rw [foldPart_eq, foldPart_eq, folded, if_pos separates, gapless, List.nil_append, Option.map_none,
    folded_after_separator separates]

theorem beginsWord_before_separator (separates : isSeparator c = true) (previous : Option Char) :
    beginsWord previous (some c) = beginsWord previous none := by
  cases previous with
  | none => rfl
  | some p => simp [beginsWord, (plain_of_isSeparator separates).2.1]

theorem folded_concat (separates : isSeparator c = true) (previous last : Option Char)
    (text : List Char) :
    ∃ underscores, (∀ d ∈ underscores, d = '_') ∧
      folded previous last (text ++ [c]) = folded previous last text ++ underscores := by
  induction text generalizing previous last with
  | nil =>
    refine ⟨gap last, ?_, by simp [folded, separates]⟩
    intro d member
    rw [gap] at member
    split at member
    · cases member
    · exact List.mem_singleton.mp member
  | cons d rest ih =>
    have next : beginsWord previous (rest ++ [c]).head? = beginsWord previous rest.head? := by
      cases rest with
      | nil => exact beginsWord_before_separator separates previous
      | cons e others => rfl
    rw [List.cons_append, folded, folded, next]
    split
    · obtain ⟨underscores, all, whole⟩ := ih (some d) (last.map fun _ => '_')
      exact ⟨underscores, all, by rw [whole, List.append_assoc]⟩
    · split
      · obtain ⟨underscores, all, whole⟩ := ih (some d) (lowercase d).getLast?
        exact ⟨underscores, all, by rw [whole]; simp only [List.append_assoc]⟩
      · obtain ⟨underscores, all, whole⟩ := ih (some d) (some d)
        exact ⟨underscores, all, by rw [whole, List.cons_append]⟩

theorem foldPart_concat (separates : isSeparator c = true) (part : List Char) :
    foldPart (part ++ [c]) = foldPart part := by
  obtain ⟨underscores, all, whole⟩ := folded_concat separates none none part
  rw [foldPart_eq, foldPart_eq, whole, List.rdropWhile, List.reverse_append,
    List.dropWhile_append_of_pos, List.rdropWhile]
  intro d member
  rw [beq_iff_eq]
  exact all d (List.mem_reverse.mp member)

/-- The parts of a name in the one style. -/
def foldedParts (name : List Char) : List (List Char) := (name.splitOn '.').map foldPart

theorem isSeparator_of_isBlank (blank : isBlank c = true) : isSeparator c = true := by
  rw [isSeparator, blank, Bool.or_true]

theorem ne_dot_of_isBlank (blank : isBlank c = true) : c ≠ '.' := by
  rintro rfl
  exact absurd blank (by decide)

theorem foldedParts_trimStart (name : List Char) :
    foldedParts (Text.trimStart name) = foldedParts name := by
  induction name with
  | nil => rfl
  | cons c rest ih =>
    rw [Text.trimStart, List.dropWhile_cons]
    split
    · next blank =>
      rw [Text.trimStart] at ih
      rw [ih, foldedParts, foldedParts, Text.splitOn_cons_of_ne (ne_dot_of_isBlank blank)]
      cases rest.splitOn '.' with
      | nil => rfl
      | cons first others =>
        rw [List.modifyHead_cons, List.map_cons, List.map_cons,
          foldPart_cons (isSeparator_of_isBlank blank)]
    · rfl

theorem foldedParts_trimEnd (name : List Char) :
    foldedParts (Text.trimEnd name) = foldedParts name := by
  induction name using List.reverseRecOn with
  | nil => rfl
  | append_singleton text c ih =>
    rw [Text.trimEnd_concat]
    split
    · next blank =>
      obtain ⟨front, part, before, after⟩ := Text.splitOn_concat (ne_dot_of_isBlank blank) text
      rw [ih, foldedParts, foldedParts, before, after, List.map_append, List.map_append,
        List.map_singleton, List.map_singleton, foldPart_concat (isSeparator_of_isBlank blank)]
    · rfl

/-- A name in the one style is the row of its folded parts. -/
theorem canonicalChars_eq (name : List Char) :
    canonicalChars name = ['.'].intercalate (foldedParts name) := by
  rw [← foldedParts_trimStart name, ← foldedParts_trimEnd (Text.trimStart name)]
  rfl

theorem foldedParts_ne_nil (name : List Char) : foldedParts name ≠ [] := by
  rw [foldedParts, ne_eq, List.map_eq_nil_iff]
  exact List.splitOn_ne_nil '.' name

/-- Names are folded on both sides of a dot apart. -/
theorem canonicalChars_append (name other : List Char) :
    canonicalChars (name ++ '.' :: other) = canonicalChars name ++ '.' :: canonicalChars other := by
  have parts : foldedParts (name ++ '.' :: other) = foldedParts name ++ foldedParts other := by
    rw [foldedParts, List.splitOn_append_cons_self, List.map_append]
    rfl
  rw [canonicalChars_eq, canonicalChars_eq, canonicalChars_eq, parts,
    Text.intercalate_append ['.'] (foldedParts_ne_nil name) (foldedParts_ne_nil other)]
  simp

theorem dot_not_mem_gap (last : Option Char) : '.' ∉ gap last := by
  rcases gap_eq_nil_or last with ⟨none, -⟩ | ⟨one, -⟩
  · simp [none]
  · simp [one]

theorem dot_not_mem_lowercase (upper : isUppercase c = true) : '.' ∉ lowercase c :=
  fun member => (of_mem_lowercase upper member).2.1 rfl

theorem dot_not_mem_folded (plain : '.' ∉ text) : '.' ∉ folded previous last text := by
  induction text generalizing previous last with
  | nil => exact plain
  | cons c rest ih =>
    obtain ⟨apart, later⟩ := not_or.mp (mt List.mem_cons.mpr plain)
    rw [folded]
    split
    · rw [List.mem_append, not_or]
      exact ⟨dot_not_mem_gap last, ih later⟩
    · split
      · next upper =>
        rw [List.mem_append, List.mem_append, not_or, not_or]
        refine ⟨?_, dot_not_mem_lowercase upper, ih later⟩
        split
        · exact dot_not_mem_gap last
        · exact List.not_mem_nil
      · rw [List.mem_cons, not_or]
        exact ⟨apart, ih later⟩

theorem dot_not_mem_foldPart (plain : '.' ∉ part) : '.' ∉ foldPart part := by
  rw [foldPart_eq]
  intro member
  exact dot_not_mem_folded plain ((List.rdropWhile_prefix _ _).subset member)

/-- The parts of a name in the one style are the folded parts of the name. -/
theorem splitOn_canonicalChars (name : List Char) :
    (canonicalChars name).splitOn '.' = foldedParts name := by
  rw [canonicalChars_eq]
  apply List.splitOn_intercalate _ _ (foldedParts_ne_nil name)
  intro folded member
  obtain ⟨part, origin, rfl⟩ := List.mem_map.mp member
  exact dot_not_mem_foldPart (Text.not_mem_of_mem_splitOn origin)

theorem canonicalChars_canonicalChars_iff (name : List Char) :
    canonicalChars (canonicalChars name) = canonicalChars name ↔
      (name.splitOn '.').all (settled none) = true := by
  have parts : foldedParts (canonicalChars name) = (foldedParts name).map foldPart := by
    rw [foldedParts, splitOn_canonicalChars]
  rw [List.all_eq_true]
  constructor
  · intro same part member
    -- Equal names have equal parts, as no part has a dot in it.
    have twice : (foldedParts name).map foldPart = foldedParts name := by
      rw [← parts, ← splitOn_canonicalChars, same, splitOn_canonicalChars]
    rw [← foldPart_foldPart_iff]
    rw [foldedParts, List.map_map] at twice
    exact List.map_inj_left.mp twice part member
  · intro each
    have twice : (foldedParts name).map foldPart = foldedParts name := by
      rw [foldedParts, List.map_map]
      apply List.map_congr_left
      intro part member
      exact (foldPart_foldPart_iff part).mpr (each part member)
    rw [canonicalChars_eq (canonicalChars name), parts, twice, ← canonicalChars_eq]

/-- Whether no word is hidden in any part of a name. -/
def settles (name : String) : Bool := (name.toList.splitOn '.').all (settled none)

/-- A second folding leaves a name alone exactly if no word is hidden in any part of it. -/
theorem canonical_canonical_iff (name : String) :
    canonical (canonical name) = canonical name ↔ settles name = true := by
  rw [settles, ← canonicalChars_canonicalChars_iff, canonical, canonical, String.toList_ofList,
    String.ofList_inj]

theorem keepsCase_of_ascii (ascii : c.toNat < 128) : keepsCase c = false :=
  Text.ascii_induction (by decide +kernel) c ascii

theorem canonical_canonical_of_ascii {name : String} (ascii : ∀ c ∈ name.toList, c.toNat < 128) :
    canonical (canonical name) = canonical name := by
  rw [canonical_canonical_iff, settles, List.all_eq_true]
  intro part member
  apply settled_of_not_keepsCase
  intro c inside
  exact keepsCase_of_ascii (ascii c (Text.mem_of_mem_splitOn member inside))

example : canonical "A\u2102" = "a\u2102" ∧ canonical "a\u2102" = "a_\u2102" := by decide +kernel

theorem canonical_append (name other : String) :
    canonical (name ++ "." ++ other) = canonical name ++ "." ++ canonical other := by
  rw [canonical, canonical, canonical, ← String.toList_inj]
  simp [canonicalChars_append]

end OperationName

end Docscript

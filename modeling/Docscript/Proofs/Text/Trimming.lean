import Docscript.Text.Blank
import Mathlib.Data.List.DropRight

set_option autoImplicit false

namespace Docscript.Text

variable {text tail : List Char}

theorem trimStart_eq_self_iff :
    trimStart text = text ↔ ∀ c, text.head? = some c → isBlank c = false := by
  cases text with
  | nil => simp [trimStart]
  | cons c rest =>
    cases blank : isBlank c with
    | false => simp [trimStart, blank]
    | true =>
      have shorter := (List.dropWhile_suffix isBlank (l := rest)).length_le
      constructor
      · intro same
        rw [trimStart, List.dropWhile_cons_of_pos blank] at same
        rw [same, List.length_cons] at shorter
        omega
      · intro first
        rw [first c rfl] at blank
        cases blank

theorem trimEnd_eq_self_iff :
    trimEnd text = text ↔ ∀ c, text.getLast? = some c → isBlank c = false := by
  have turned : trimEnd text = text ↔ trimStart text.reverse = text.reverse := by
    rw [← List.reverse_inj, trimEnd, List.reverse_reverse, trimStart]
  rw [turned, trimStart_eq_self_iff, List.head?_reverse]

theorem trimEnd_concat (text : List Char) (c : Char) :
    trimEnd (text ++ [c]) = if isBlank c = true then trimEnd text else text ++ [c] :=
  List.rdropWhile_concat isBlank text c

/-- Blanks are taken from the end of the last text, and from the one before it if nothing is left of
the last one. -/
theorem trimEnd_append (front text : List Char) :
    trimEnd (front ++ text) =
      if trimEnd text = [] then trimEnd front else front ++ trimEnd text := by
  induction text using List.reverseRecOn with
  | nil =>
    have nothing : trimEnd [] = [] := rfl
    rw [List.append_nil, if_pos nothing]
  | append_singleton text c ih =>
    rw [← List.append_assoc, trimEnd_concat, trimEnd_concat]
    split
    · exact ih
    · rw [if_neg (by simp), List.append_assoc]

theorem trimEnd_of_suffix (suffix : tail <:+ text) (trimmed : trimEnd text = text) :
    trimEnd tail = tail := by
  obtain ⟨front, rfl⟩ := suffix
  rw [trimEnd_eq_self_iff] at trimmed ⊢
  intro c last
  exact trimmed c (by rw [List.getLast?_append, last, Option.some_or])

theorem trim_eq_self_iff :
    trim text = text ↔ trimStart text = text ∧ trimEnd text = text := by
  constructor
  · intro trimmed
    have start : trimStart text = text := by
      apply (List.dropWhile_suffix isBlank).eq_of_length_le
      have shorter : (trimEnd (trimStart text)).length ≤ (trimStart text).length :=
        (List.rdropWhile_prefix isBlank (trimStart text)).length_le
      rw [← trim, trimmed] at shorter
      exact shorter
    exact ⟨start, by rwa [trim, start] at trimmed⟩
  · rintro ⟨start, stop⟩
    rw [trim, start, stop]

theorem length_trim_le (text : List Char) : (trim text).length ≤ text.length := by
  have back : (trim text).length ≤ (trimStart text).length :=
    (List.rdropWhile_prefix isBlank (trimStart text)).length_le
  have front : (trimStart text).length ≤ text.length := (List.dropWhile_suffix isBlank).length_le
  exact Nat.le_trans back front

theorem trim_trim (text : List Char) : trim (trim text) = trim text := by
  rw [trim_eq_self_iff]
  constructor
  · rw [trimStart_eq_self_iff]
    intro c first
    obtain ⟨rest, whole⟩ : trim text <+: trimStart text :=
      List.rdropWhile_prefix isBlank (trimStart text)
    have start : trimStart (trimStart text) = trimStart text :=
      List.dropWhile_idempotent isBlank text
    apply trimStart_eq_self_iff.mp start
    rw [← whole, List.head?_append, first, Option.some_or]
  · exact List.rdropWhile_idempotent isBlank (trimStart text)

theorem trim_eq_trimStart (trimmed : trimEnd text = text) : trim text = trimStart text :=
  trimEnd_of_suffix (List.dropWhile_suffix isBlank) trimmed

theorem trim_blank_append {before : List Char} (blank : ∀ c ∈ before, isBlank c = true)
    (text : List Char) : trim (before ++ text) = trim text := by
  rw [trim, trimStart, List.dropWhile_append_of_pos blank]
  rfl

theorem trim_append_blank {after : List Char} (blank : ∀ c ∈ after, isBlank c = true)
    (text : List Char) : trim (text ++ after) = trim text := by
  have nothing : trimEnd after = [] := List.rdropWhile_eq_nil_iff.mpr blank
  rw [trim, trim, trimStart, List.dropWhile_append]
  split
  · next empty =>
    rw [List.dropWhile_eq_nil_iff.mpr blank, trimStart, List.isEmpty_iff.mp empty]
  · rw [trimEnd_append, if_pos nothing]
    rfl

theorem trim_of_not_blank (plain : ∀ c ∈ text, isBlank c = false) : trim text = text := by
  rw [trim_eq_self_iff, trimStart_eq_self_iff, trimEnd_eq_self_iff]
  exact ⟨fun c first => plain c (List.mem_of_head? first),
    fun c last => plain c (List.mem_of_getLast? last)⟩

end Docscript.Text

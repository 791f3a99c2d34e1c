import Docscript.Proofs.Text.Parts
import Mathlib.Data.List.Infix

set_option autoImplicit false

namespace Docscript.Text

theorem hasPart_iff {part text : List Char} : hasPart part text = true ↔ part <:+: text := by
  induction text with
  | nil => rw [hasPart, List.isEmpty_iff, List.infix_nil]
  | cons c rest ih =>
    rw [hasPart, Bool.or_eq_true, ih, List.isPrefixOf_iff_prefix, List.infix_cons_iff]

section SplitOnce

variable {separator text before after : List Char}

theorem isPrefixOf?_eq_none_iff : separator.isPrefixOf? text = none ↔ ¬ separator <+: text := by
  rw [Option.eq_none_iff_forall_ne_some]
  constructor
  · rintro absent ⟨rest, whole⟩
    exact absent rest (List.isPrefixOf?_eq_some_iff_append_eq.mpr whole)
  · intro absent rest found
    exact absent ⟨rest, List.isPrefixOf?_eq_some_iff_append_eq.mp found⟩

theorem splitOnce?_eq_none_iff : splitOnce? separator text = none ↔ ¬ separator <:+: text := by
  induction text with
  | nil =>
    rw [splitOnce?, Option.map_eq_none_iff, isPrefixOf?_eq_none_iff, List.prefix_nil,
      List.infix_nil]
  | cons c rest ih =>
    rw [List.infix_cons_iff, not_or, ← isPrefixOf?_eq_none_iff, ← ih, splitOnce?]
    cases separator.isPrefixOf? (c :: rest) <;> simp

theorem of_splitOnce?_eq_some (found : splitOnce? separator text = some (before, after)) :
    text = before ++ separator ++ after ∧
      ∀ front rest, text = front ++ separator ++ rest → before.length ≤ front.length := by
  induction text generalizing before with
  | nil =>
    rw [splitOnce?, Option.map_eq_some_iff] at found
    obtain ⟨rest, here, same⟩ := found
    cases same
    rw [List.isPrefixOf?_eq_some_iff_append_eq] at here
    exact ⟨here.symm, fun _ _ _ => Nat.zero_le _⟩
  | cons c tail ih =>
    rw [splitOnce?] at found
    split at found
    · next rest here =>
      cases found
      rw [List.isPrefixOf?_eq_some_iff_append_eq] at here
      exact ⟨here.symm, fun _ _ _ => Nat.zero_le _⟩
    · next absent =>
      obtain ⟨⟨earlier, rest⟩, later, same⟩ := Option.map_eq_some_iff.mp found
      cases same
      obtain ⟨whole, first⟩ := ih later
      refine ⟨by rw [whole]; rfl, fun front others split => ?_⟩
      cases front with
      | nil => exact absurd ⟨others, split.symm⟩ (isPrefixOf?_eq_none_iff.mp absent)
      | cons d front =>
        have onward := first front others (List.cons.inj split).2
        exact Nat.succ_le_succ onward

/-- A text is split around the first occurrence of the separator. -/
theorem splitOnce?_eq_some_iff :
    splitOnce? separator text = some (before, after) ↔
      text = before ++ separator ++ after ∧
        ∀ front rest, text = front ++ separator ++ rest → before.length ≤ front.length := by
  refine ⟨of_splitOnce?_eq_some, fun ⟨whole, first⟩ => ?_⟩
  cases found : splitOnce? separator text with
  | none => exact absurd ⟨before, after, whole.symm⟩ (splitOnce?_eq_none_iff.mp found)
  | some sides =>
    obtain ⟨front, rest⟩ := sides
    obtain ⟨other, earliest⟩ := of_splitOnce?_eq_some found
    have size := Nat.le_antisymm (earliest before after whole) (first front rest other)
    rw [whole, List.append_assoc, List.append_assoc] at other
    obtain ⟨rfl, onward⟩ := List.append_inj other size.symm
    rw [List.append_cancel_left onward]

theorem not_infix_of_splitOnce? (split : splitOnce? separator text = some (before, after))
    (nonempty : separator ≠ []) : ¬ separator <:+: before := by
  obtain ⟨whole, first⟩ := of_splitOnce?_eq_some split
  rintro ⟨front, rest, rfl⟩
  have shorter := first front (rest ++ separator ++ after) (by simp [whole])
  have size := List.length_pos_of_ne_nil nonempty
  simp only [List.length_append] at shorter
  omega

end SplitOnce

section Runs

variable {mark : Char} {n : Nat} {left right : List Char}

/-- A run of one character does not lie across a joint with another character at one of its
sides. -/
theorem replicate_infix_append_iff
    (apart : left.getLast? ≠ some mark ∨ right.head? ≠ some mark) :
    List.replicate n mark <:+: left ++ right ↔
      List.replicate n mark <:+: left ∨ List.replicate n mark <:+: right := by
  rw [List.infix_append_iff, ← or_assoc]
  refine ⟨?_, .inl⟩
  rintro (within | ⟨back, front, run, ⟨earlier, rfl⟩, ⟨later, rfl⟩⟩)
  · exact within
  · obtain ⟨-, backMarks, frontMarks⟩ := List.append_eq_replicate_iff.mp run.symm
    cases back with
    | nil => exact .inr ⟨[], later, by rw [run]; rfl⟩
    | cons b back =>
      cases front with
      | nil => exact .inl ⟨earlier, [], by rw [run, List.append_nil, List.append_nil]⟩
      | cons c front =>
        have leftEnd : (earlier ++ b :: back).getLast? = some mark := by
          rw [List.getLast?_append_of_ne_nil _ (List.cons_ne_nil b back), backMarks,
            List.getLast?_replicate, if_neg (by simp)]
        have rightStart : (c :: front ++ later).head? = some mark := by
          rw [frontMarks, List.length_cons, List.replicate_succ]
          rfl
        exact (apart.elim (· leftEnd) (· rightStart)).elim

/-- After a text that has no run in it and ends otherwise a run does not start any earlier. -/
theorem length_le_of_replicate (absent : ¬ List.replicate n mark <:+: left)
    (ends : left.getLast? ≠ some mark) {front rest : List Char}
    (occurs : left ++ List.replicate n mark ++ right = front ++ List.replicate n mark ++ rest) :
    left.length ≤ front.length := by
  by_contra shorter
  rw [List.append_assoc, List.append_assoc] at occurs
  rcases List.append_eq_append_iff.mp occurs with ⟨gap, rfl, -⟩ | ⟨gap, rfl, onward⟩
  · simp at shorter
  · rcases List.append_eq_append_iff.mp onward with ⟨tail, rfl, -⟩ | ⟨tail, run, -⟩
    · exact absent ⟨front, tail, List.append_assoc _ _ _⟩
    · obtain ⟨-, marks, -⟩ := List.append_eq_replicate_iff.mp run.symm
      have some : gap.length ≠ 0 := fun none => shorter (by simp [none])
      have nonempty : gap ≠ [] := fun none => some (by simp [none])
      rw [List.getLast?_append_of_ne_nil _ nonempty, marks, List.getLast?_replicate,
        if_neg some] at ends
      exact ends rfl

end Runs

section Doubled

variable {mark : Char} {text : List Char}

theorem splitOn_mark_cons (rest : List Char) :
    (mark :: rest).splitOn mark = [] :: rest.splitOn mark :=
  List.splitOn_append_cons_self [] rest

theorem first_part_eq_nil_iff {first : List Char} {others : List (List Char)}
    (parts : text.splitOn mark = first :: others) :
    first = [] ↔ text = [] ∨ text.head? = some mark := by
  cases text with
  | nil =>
    rw [List.splitOn_nil, List.cons.injEq] at parts
    simp [← parts.1]
  | cons c rest =>
    by_cases same : c = mark
    · rw [same, splitOn_mark_cons, List.cons.injEq] at parts
      simp [← parts.1, same]
    · obtain ⟨part, tail, split⟩ := List.exists_cons_of_ne_nil (List.splitOn_ne_nil mark rest)
      rw [splitOn_cons_of_ne same, split, List.modifyHead_cons, List.cons.injEq] at parts
      simp [← parts.1, same]

theorem getLast?_cons_eq_some_iff {c d : Char} {rest : List Char} :
    (c :: rest).getLast? = some d ↔ rest = [] ∧ c = d ∨ rest.getLast? = some d := by
  cases rest with
  | nil => simp
  | cons e others => simp [List.getLast?_cons_cons]

theorem nil_mem_tail_splitOn_iff :
    [] ∈ (text.splitOn mark).tail ↔ text.getLast? = some mark ∨ [mark, mark] <:+: text := by
  induction text with
  | nil => simp
  | cons c rest ih =>
    obtain ⟨part, tail, split⟩ := List.exists_cons_of_ne_nil (List.splitOn_ne_nil mark rest)
    rw [split, List.tail_cons] at ih
    rw [List.infix_cons_iff, getLast?_cons_eq_some_iff]
    by_cases same : c = mark
    · have doubled : [mark, mark] <+: mark :: rest ↔ rest.head? = some mark := by
        rw [List.cons_prefix_cons, eq_self, true_and, List.singleton_prefix_iff_head?_eq_some]
      rw [same, splitOn_mark_cons, List.tail_cons, split, List.mem_cons, eq_comm,
        first_part_eq_nil_iff split, ih, doubled]
      tauto
    · have single : ¬ [mark, mark] <+: c :: rest := by
        rw [List.cons_prefix_cons]
        exact fun both => same both.1.symm
      rw [splitOn_cons_of_ne same, split, List.modifyHead_cons, List.tail_cons, ih]
      tauto

/-- No part of a text between marks is empty exactly if no mark is at one of its ends and no two are
next to each other. -/
theorem nil_not_mem_splitOn_iff :
    [] ∉ text.splitOn mark ↔
      text ≠ [] ∧ text.head? ≠ some mark ∧ text.getLast? ≠ some mark ∧
        ¬ [mark, mark] <:+: text := by
  obtain ⟨first, others, parts⟩ := List.exists_cons_of_ne_nil (List.splitOn_ne_nil mark text)
  have later : [] ∈ (text.splitOn mark).tail ↔ _ := nil_mem_tail_splitOn_iff
  rw [parts, List.tail_cons] at later
  rw [parts, List.mem_cons, eq_comm, first_part_eq_nil_iff parts, later]
  simp only [not_or, and_assoc]

end Doubled

end Docscript.Text

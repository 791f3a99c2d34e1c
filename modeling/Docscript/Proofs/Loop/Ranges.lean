import Docscript.Proofs.Loop.Grammar

set_option autoImplicit false

namespace Docscript

namespace Bound

/-- A bound is an integer, or a path none of whose segments is empty. -/
def Segmented : Bound → Prop
  | literal _ => True
  | path text => [] ∉ text.toList.splitOn '.'

/-- A bound that is read is one of the two exactly if there are no two dots in a row in its text. -/
theorem segmented_iff {text : List Char} {bound : Bound} (read : parse? text = some bound) :
    bound.Segmented ↔ ¬ ['.', '.'] <:+: text := by
  cases bound with
  | literal n =>
    obtain ⟨-, dotless⟩ := Text.dotless_of_readInt64? (parse?_eq_literal_iff.mp read)
    refine iff_of_true trivial fun doubled => dotless ?_
    exact doubled.subset List.mem_cons_self
  | path path =>
    obtain ⟨rfl, nonempty, starts, ends, -⟩ := parse?_eq_path_iff.mp read
    rw [Segmented, Text.nil_not_mem_splitOn_iff]
    simp [nonempty, starts, ends]

end Bound

namespace Loop

/-- A key is a range exactly if its fourth word is divided by an operator into two bounds, the
foremost operator in it. An end of the range is an integer or a path without empty segments exactly
if its text has no second operator in it. -/
theorem range_keys (key counter : String) (start stop : Bound) (inclusive : Bool) :
    (parse? key = some (.range counter start stop inclusive) ↔
      ∃ lead link before after : String,
        (Text.words key.toList).map String.ofList =
          [lead, counter, link, before ++ operator inclusive ++ after] ∧
        isLead lead = true ∧ (link = "in" ∨ link = "of") ∧
        name? counter.toList = some counter ∧
        Bound.parse? before.toList = some start ∧ Bound.parse? after.toList = some stop ∧
        Foremost inclusive before.toList after.toList) ∧
    ∀ (text : List Char) (bound : Bound), Bound.parse? text = some bound →
      (bound.Segmented ↔ ¬ (operator true).toList <:+: text) := by
  refine ⟨?_, fun _ _ => Bound.segmented_iff⟩
  rw [parse?_eq_some_iff]
  constructor
  · intro declares
    generalize (Text.words key.toList).map String.ofList = words at declares
    cases declares with
    | range leads links named first last foremost =>
      exact ⟨_, _, _, _, rfl, leads, links, named, first, last, foremost⟩
  · rintro ⟨lead, link, before, after, words, leads, links, named, first, last, foremost⟩
    rw [words]
    exact .range leads links named first last foremost

/-- Two operators in a range: the second one is a part of its end. -/
theorem range_keys_of_two_operators :
    parse? "for i of 1..2..3" = some (.range "i" (.literal 1) (.path "2..3") true) ∧
      (Bound.literal 1).Segmented ∧ ¬ (Bound.path "2..3").Segmented := by
  obtain ⟨range, segmented⟩ :=
    range_keys "for i of 1..2..3" "i" (.literal 1) (.path "2..3") true
  have first : Bound.parse? "1".toList = some (.literal 1) := rfl
  have last : Bound.parse? "2..3".toList = some (.path "2..3") := rfl
  have foremost : Foremost true "1".toList "2..3".toList := by
    refine ⟨?_, fun _ => ?_⟩ <;> rw [← Text.hasPart_iff] <;> decide
  refine ⟨range.mpr ?_, (segmented _ _ first).mpr ?_, fun whole => ?_⟩
  · exact ⟨"for", "of", "1", "2..3", rfl, rfl, .inr rfl, rfl, first, last, foremost⟩
  · rw [← Text.hasPart_iff]
    decide
  · exact (segmented _ _ last).mp whole ⟨['2'], ['3'], rfl⟩

/-- A range whose end has an empty segment. -/
theorem not_forall_segmented :
    ¬ ∀ (key counter : String) (start stop : Bound) (inclusive : Bool),
      parse? key = some (.range counter start stop inclusive) →
        start.Segmented ∧ stop.Segmented := by
  intro always
  have read : parse? "for i of 1..2..3" = some (.range "i" (.literal 1) (.path "2..3") true) := rfl
  exact (always _ _ _ _ _ read).2 (by decide)

end Loop

end Docscript

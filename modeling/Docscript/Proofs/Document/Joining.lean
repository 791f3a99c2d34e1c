import Docscript.Proofs.ConditionBlock.Selection
import Docscript.Proofs.Document.Templates

/- Where an object is split makes no difference to a run of condition keys before the split: a plain
key ends it as the end of an object does. -/

set_option autoImplicit false

namespace Docscript

namespace Document

variable {options : CompileOptions} {c : Context}

/-- Before a plain key the entries of an object add what they add alone, and the others what they
add alone. -/
theorem additions_append (text : String → String) {key : String}
    (plain : KeyClass.classify key = .plain) (body : Meaning)
    (run first rest : List (String × Meaning)) :
    additions text c run (first ++ (key, body) :: rest) = (do
      let front ← additions text c run first
      let back ← additions text c [] ((key, body) :: rest)
      return front ++ back) := by
  induction first generalizing run with
  | nil =>
    -- The run that is open at the split is ended by the plain key.
    have noRun : runAdditions c [] = pure [] := rfl
    rw [List.nil_append, additions, additions, additions, plain, noRun]
    simp only [bind_assoc, pure_bind, List.nil_append, List.append_assoc]
  | cons entry others ih =>
    obtain ⟨name, own⟩ := entry
    rw [List.cons_append, additions, additions]
    cases KeyClass.classify name with
    | condition role => exact ih (run ++ [(name, own)])
    | loop declared => rfl
    | plain => simp only [ih [], bind_assoc, pure_bind, List.append_assoc]

theorem render_object_of_mem_plain (options : CompileOptions) (c : Context)
    {entries : List (String × Value)} {entry : String × Value} (member : entry ∈ entries)
    (plain : KeyClass.classify entry.1 = .plain) :
    render options c (.object entries) =
      (additions (Template.compileKey options c) c [] (entryMeanings options entries)).map
        fun added => .object (Entries.insertAll [] added) := by
  have inside : (entry.1, meaning options entry.2) ∈ entryMeanings options entries := by
    rw [entryMeanings_eq]
    exact List.mem_map_of_mem member
  rw [render, meaning_object_eq entries (soleLoop?_of_mem_plain inside plain)
    (isBlock_of_mem_plain inside plain)]
  cases additions (Template.compileKey options c) c [] (entryMeanings options entries) <;> rfl

/-- Entries put after others: a key that is there keeps its place and takes the later value, and
other keys come after all that are there, in their order. -/
structure Extends (before after whole : Entries Value) : Prop where
  keys_eq : whole.keys = before.keys ++ after.keys.filter (· ∉ before.keys)
  get?_eq : ∀ key, whole.get? key = (after.get? key).or (before.get? key)

theorem extends_insertAll (before added : Entries Value) :
    Extends before (Entries.insertAll [] added) (before.insertAll added) := by
  have gathered := Entries.gathers_insertAll added
  have none : (Entries.keys ([] : Entries Value)).Nodup := List.nodup_nil
  have same : before.insertAll added = before.insertAll (Entries.insertAll [] added) :=
    (Entries.insertAll_insertAll none before added).symm
  constructor
  · rw [same, Entries.keys_insertAll gathered.once]
  · intro key
    rw [Entries.get?_insertAll, gathered.last]

/-- An object that is split before a plain key, with some plain key before the split, renders
exactly if its parts do, to the entries of the first part extended by those of the second. It fails
as its first part does, and if that does not fail, as its second part does. -/
theorem render_append (options : CompileOptions) (c : Context) {first rest : List (String × Value)}
    {key : String} (value : Value)
    (mixed : ∃ entry ∈ first, KeyClass.classify entry.1 = .plain)
    (plain : KeyClass.classify key = .plain) :
    let second := (key, value) :: rest
    ((∃ whole, render options c (.object (first ++ second)) = .ok whole) ↔
      (∃ front, render options c (.object first) = .ok front) ∧
        ∃ back, render options c (.object second) = .ok back) ∧
    (∀ front back, render options c (.object first) = .ok front →
      render options c (.object second) = .ok back →
      ∃ before after whole : Entries Value, front = .object before ∧ back = .object after ∧
        render options c (.object (first ++ second)) = .ok (.object whole) ∧
        Extends before after whole) ∧
    (∀ error, render options c (.object first) = .error error →
      render options c (.object (first ++ second)) = .error error) ∧
    ∀ front error, render options c (.object first) = .ok front →
      render options c (.object second) = .error error →
      render options c (.object (first ++ second)) = .error error := by
  intro second
  obtain ⟨entry, member, own⟩ := mixed
  have joint : entryMeanings options (first ++ second) =
      entryMeanings options first ++ entryMeanings options second := by
    rw [entryMeanings_eq, entryMeanings_eq, entryMeanings_eq, List.map_append]
  have lead : entryMeanings options second =
      (key, meaning options value) :: entryMeanings options rest := rfl
  have whole := render_object_of_mem_plain options c (List.mem_append_left second member) own
  rw [joint, lead, additions_append _ plain, ← lead] at whole
  have lone : (key, value) ∈ second := List.mem_cons_self
  rw [whole, render_object_of_mem_plain options c member own,
    render_object_of_mem_plain options c lone plain]
  cases additions (Template.compileKey options c) c [] (entryMeanings options first) with
  | error error => simp [Except.map, Bind.bind, Except.bind]
  | ok front =>
    cases additions (Template.compileKey options c) c [] (entryMeanings options second) with
    | error error => simp [Except.map, Bind.bind, Except.bind]
    | ok back =>
      have together : Entries.insertAll [] (front ++ back) =
          (Entries.insertAll [] front).insertAll back := Entries.insertAll_append [] front back
      simp [Except.map, Bind.bind, Except.bind, Pure.pure, Except.pure, together,
        extends_insertAll]

theorem runAdditions_of_true {key expression : String} {test : Expression} {body : Meaning}
    {entries : Entries Value} (read : ConditionKey.parse? key = some (.ifTrue expression))
    (parsed : Expression.parse expression = .ok test) (holds : test.eval c = true)
    (rendered : body c = .ok (.value (.object entries))) :
    runAdditions c [(key, body)] = .ok entries := by
  have formed := ConditionBlock.ofEntries_singleton read body
  rw [parsed] at formed
  have chosen : choose ⟨[⟨some test, body⟩]⟩ c = .ok (.value (.object entries)) := by
    rw [choose, ConditionBlock.select_singleton, if_pos holds]
    exact rendered
  rw [runAdditions, formed]
  simp [Except.map, chosen]

/-- A split after a run of condition keys, whose branch puts a key that the second part puts again.
-/
theorem render_append_after_run :
    let c : Context := ⟨[("on", .bool true)]⟩
    let first : List (String × Value) :=
      [("a", .int 1), ("if on", .object [("p", .int 2), ("q", .int 3)])]
    let second : List (String × Value) := [("p", .int 4), ("b", .int 5)]
    (∃ entry ∈ first, KeyClass.classify entry.1 = .plain) ∧ KeyClass.classify "p" = .plain ∧
      ∃ whole : Entries Value, render {} c (.object (first ++ second)) = .ok (.object whole) ∧
        whole.keys = ["a", "p", "q", "b"] ∧ whole.get? "p" = some (.int 4) := by
  intro c first second
  have plain : ∀ key ∈ ["a", "b", "p", "q"], KeyClass.classify key = .plain := by decide
  have fixed : ∀ key ∈ ["a", "b", "p", "q"], Template.compileKey {} c key = key := by
    have unmarked : ∀ key ∈ ["a", "b", "p", "q"], '$' ∉ key.toList := by decide
    exact fun key member => Template.compileKey_of_plain (unmarked key member) {} c
  have mixed : ∃ entry ∈ first, KeyClass.classify entry.1 = .plain :=
    ⟨_, List.mem_cons_self, plain "a" (by simp)⟩
  have branch : runAdditions c [("if on", meaning {} (.object [("p", .int 2), ("q", .int 3)]))] =
      .ok [("p", .int 2), ("q", .int 3)] := by
    have found : c.get? "on" = some (.bool true) := Context.get?_of_stored (by decide) rfl
    have holds : (Expression.truthy (.word "on")).eval c = true := Expression.eval_of_get? found
    have free : (Value.object [("p", .int 2), ("q", .int 3)]).ControlFree := rfl
    have read : ConditionKey.parse? "if on" = some (.ifTrue "on") := by decide
    apply runAdditions_of_true read rfl holds
    rw [meaning_of_controlFree free, Template.compile_object_eq]
    simp [fixed]
    rfl
  have frontEq : render {} c (.object first) =
      .ok (.object [("a", .int 1), ("p", .int 2), ("q", .int 3)]) := by
    have condition : KeyClass.classify "if on" = .condition (.ifTrue "on") := by decide
    have noRun : runAdditions c [] = .ok [] := rfl
    have listed : entryMeanings {} first = [("a", meaning {} (.int 1)),
        ("if on", meaning {} (.object [("p", .int 2), ("q", .int 3)]))] := rfl
    have number : meaning {} (.int 1) c = .ok (.value (.int 1)) := rfl
    rw [render_object_of_mem_plain {} c List.mem_cons_self (plain "a" (by simp)), listed]
    simp only [additions, plain "a" (by simp), condition, noRun, number, List.nil_append, branch,
      fixed "a" (by simp)]
    rfl
  have backEq : render {} c (.object second) = .ok (.object second) := by
    have free : (Value.object second).ControlFree := rfl
    rw [render, meaning_of_controlFree free, Template.compile_object_eq]
    simp [second, fixed]
    rfl
  obtain ⟨-, joined, -, -⟩ := render_append {} c (.int 4) mixed (plain "p" (by simp))
  obtain ⟨before, after, whole, front, back, rendered, extended⟩ := joined _ _ frontEq backEq
  cases front
  cases back
  refine ⟨mixed, plain "p" (by simp), whole, rendered, ?_, ?_⟩
  · rw [extended.keys_eq]
    decide
  · rw [extended.get?_eq]
    rfl

end Document

end Docscript

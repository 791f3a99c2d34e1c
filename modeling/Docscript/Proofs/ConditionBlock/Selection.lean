import Docscript.ConditionBlock
import Docscript.Proofs.Steps

set_option autoImplicit false

namespace Docscript

theorem Expression.eval_of_get? {c : Context} {name : String} {value : Value}
    (found : c.get? name = some value) : (truthy (.word name)).eval c = value.truthy := by
  simp only [eval, Operand.truthy, found]

namespace ConditionBlock

variable {β γ : Type}

def Branch.map (f : β → γ) (branch : Branch β) : Branch γ := ⟨branch.test, f branch.body⟩

def map (f : β → γ) (block : ConditionBlock β) : ConditionBlock γ :=
  ⟨block.branches.map (Branch.map f)⟩

/-- The shape of a block does not depend on what its branches contain. -/
theorem branches?_map (f : β → γ) (stage : Stage) (entries : List (String × β)) :
    branches? stage (entries.map fun entry => (entry.1, f entry.2)) =
      (branches? stage entries).map (List.map (Branch.map f)) := by
  induction entries generalizing stage with
  | nil =>
    rw [List.map_nil, branches?, branches?]
    split <;> rfl
  | cons entry rest ih =>
    obtain ⟨key, body⟩ := entry
    have tested (expression : String) :
        (do
          let test ← Expression.parse expression
          let others ← branches? .opened (rest.map fun entry => (entry.1, f entry.2))
          .ok (⟨some test, f body⟩ :: others) : Except Error (List (Branch γ))) =
        Except.map (List.map (Branch.map f)) (do
          let test ← Expression.parse expression
          let others ← branches? .opened rest
          .ok (⟨some test, body⟩ :: others)) := by
      rw [ih]
      cases Expression.parse expression with
      | error fault => rfl
      | ok test => cases branches? .opened rest <;> rfl
    simp only [List.map_cons, branches?]
    cases ConditionKey.parse? key with
    | none => rfl
    | some role =>
      cases role with
      | ifTrue expression =>
        cases stage with
        | start => exact tested expression
        | opened => rfl
        | closed => rfl
      | elseIf expression =>
        cases stage with
        | start => rfl
        | opened => exact tested expression
        | closed => rfl
      | otherwise =>
        cases stage with
        | start => rfl
        | opened =>
          simp only [ih]
          cases branches? .closed rest <;> rfl
        | closed => rfl

theorem ofEntries_map (f : β → γ) (entries : List (String × β)) :
    ofEntries (entries.map fun entry => (entry.1, f entry.2)) =
      (ofEntries entries).map (map f) := by
  rw [ofEntries, ofEntries, branches?_map]
  cases branches? .start entries <;> rfl

theorem select_map (f : β → γ) (block : ConditionBlock β) (c : Context) :
    (block.map f).select c = (block.select c).map f := by
  have same : passes c ∘ Branch.map f = passes c := rfl
  rw [select, select, map, List.find?_map, same, Option.map_map, Option.map_map]
  rfl

/-- What is selected is one of the bodies. The entries are those of a block whose bodies carry the
proof of it. -/
theorem exists_mem_of_select {entries : List (String × β)} {block : ConditionBlock β} {body : β}
    {c : Context} (formed : ofEntries entries = .ok block) (selected : block.select c = some body) :
    ∃ key, (key, body) ∈ entries := by
  let bodies : List (String × { body : β // ∃ key, (key, body) ∈ entries }) :=
    entries.attach.map fun entry => (entry.1.1, ⟨entry.1.2, entry.1.1, entry.2⟩)
  have whole : bodies.map (fun entry => (entry.1, entry.2.1)) = entries := by
    rw [List.map_map]
    exact List.attach_map_subtype_val entries
  have shape := ofEntries_map (·.1) bodies
  rw [whole, formed] at shape
  obtain ⟨inner, -, rfl⟩ := Steps.of_map_eq_ok shape.symm
  rw [select_map, Option.map_eq_some_iff] at selected
  obtain ⟨found, -, rfl⟩ := selected
  exact found.2

theorem ofEntries_singleton {key expression : String}
    (read : ConditionKey.parse? key = some (.ifTrue expression)) (body : β) :
    ofEntries [(key, body)] =
      (Expression.parse expression).map fun test => ⟨[⟨some test, body⟩]⟩ := by
  simp only [ofEntries, branches?, read]
  cases Expression.parse expression <;> rfl

theorem ofEntries_ifElse {key expression : String}
    (read : ConditionKey.parse? key = some (.ifTrue expression)) (body other : β) :
    ofEntries [(key, body), ("else", other)] =
      (Expression.parse expression).map fun test => ⟨[⟨some test, body⟩, ⟨none, other⟩]⟩ := by
  have final : ConditionKey.parse? "else" = some .otherwise := by decide
  simp only [ofEntries, branches?, read, final]
  cases Expression.parse expression <;> rfl

theorem select_ifElse (test : Expression) (body other : β) (c : Context) :
    select ⟨[⟨some test, body⟩, ⟨none, other⟩]⟩ c =
      some (if test.eval c then body else other) := by
  cases holds : test.eval c <;> simp [select, passes, holds]

theorem select_singleton (test : Expression) (body : β) (c : Context) :
    select ⟨[⟨some test, body⟩]⟩ c = if test.eval c then some body else none := by
  cases holds : test.eval c <;> simp [select, passes, holds]

end ConditionBlock

end Docscript

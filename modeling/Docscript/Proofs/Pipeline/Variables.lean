import Docscript.Proofs.ConditionBlock.Keys
import Docscript.Proofs.Context.Frame
import Docscript.Proofs.Expression.Written
import Docscript.Proofs.Pipeline.Shapes
import Docscript.Proofs.Template.Keys

set_option autoImplicit false

namespace Docscript

open Template (compile compileKey textHasPlaceholder)

namespace Operation

theorem setVariables_object (entries : Entries Value) (c : Context) (previous : Value) :
    setVariables (.object entries) c previous = ⟨.ok previous, c.setAll entries, []⟩ := rfl

theorem get?_withBuiltins {name : String} {operation : Operation}
    (member : (name, operation) ∈ builtins) :
    Registry.withBuiltins.get? name = some operation := by
  simp only [builtins, List.mem_cons, Prod.mk.injEq, List.not_mem_nil, or_false] at member
  rcases member with ⟨rfl, rfl⟩ | ⟨rfl, rfl⟩ | ⟨rfl, rfl⟩ | ⟨rfl, rfl⟩ <;> rfl

end Operation

namespace Context

/-- What a path stands for in look-ups, on its own in a condition, on the sides of a comparison and
as a bare argument. -/
structure StandsFor (c : Context) (path : String) (value : Value) : Prop where
  found : c.get? path = some value
  truthy : (Operand.word path).truthy c = value.truthy
  left : (Operand.word path).resolveLeft c = .value value
  right : Expression.Named path → (Operand.word path).resolveRight c = .value value
  argument : ∀ options : CompileOptions, textHasPlaceholder path.toList = false →
    path.toList.any Text.isBlank = false → compile options c (.string path) = value

variable {c : Context} {path : String} {value : Value}

theorem standsFor_of_get? (found : c.get? path = some value) : c.StandsFor path value := by
  refine ⟨found, ?_, Operand.resolveLeft_word found, ?_, ?_⟩
  · simp only [Operand.truthy, found]
  · intro named
    rw [Operand.resolveRight_named named, found]
    rfl
  · intro options unfilled bare
    rw [compile]
    exact Template.compileText_of_get? unfilled bare found options

end Context

namespace Template

variable {options : CompileOptions} {c : Context}

theorem exists_get?_compile_object {key : String} (field : Value) (before : Entries Value)
    {after : Entries Value}
    (last : ∀ entry ∈ after, compileKey options c entry.1 ≠ compileKey options c key) :
    ∃ compiled : Entries Value,
      compile options c (.object (before ++ (key, field) :: after)) = .object compiled ∧
        compiled.get? (compileKey options c key) = some (compile options c field) := by
  let put (entry : String × Value) := (compileKey options c entry.1, compile options c entry.2)
  have fresh : compileKey options c key ∉ Entries.keys (after.map put).reverse := by
    simpa [Entries.keys, put, eq_comm] using fun name value member => last (name, value) member
  refine ⟨_, compile_object_eq _, ?_⟩
  rw [Entries.get?_insertAll, List.map_append, List.map_cons, List.reverse_append,
    List.reverse_cons, List.append_assoc, List.singleton_append,
    Entries.get?_append_cons fresh, Option.some_or]

end Template

namespace Pipeline

/-- A step that chooses by a condition. -/
def ifElse (condition : String) (body other : Value) : Value :=
  .object [("if " ++ condition, body), ("else", other)]

variable {pipeline : Pipeline} {c : Context}

theorem run_ifElse {condition : String} {test : Expression} (body other previous : Value)
    (trimmed : Text.trim condition.toList = condition.toList)
    (parsed : Expression.parse condition = .ok test) :
    pipeline.run (ifElse condition body other) previous c =
      pipeline.run (if test.eval c then body else other) previous c := by
  have nonempty : condition ≠ "" := by
    rintro rfl
    cases parsed
  have read := ConditionKey.parse?_if trimmed nonempty
  have block : isBlock [("if " ++ condition, body), ("else", other)] = true := by
    simp [isBlock, isConditionKey, read]
  rw [ifElse, run_block pipeline block, ConditionBlock.ofEntries_ifElse read, parsed]
  simp only [Except.map, ConditionBlock.select_ifElse]

theorem calls_run_single {name : String} {operation : Operation}
    (registered : pipeline.registry.get? name = some operation)
    (plain : isConditionKey name = false) (other : name ≠ handlerKey) (args previous : Value) :
    (pipeline.run (.object [(name, args)]) previous c).calls =
      [pipeline.callOf operation name args previous c] := by
  have single := run_callStep pipeline none (name, args) plain other previous c
  rw [callStep, Option.toList_none, List.map_nil, Option.map_none,
    callAll_of_some pipeline registered] at single
  rw [single]
  dsimp only
  cases (pipeline.callOf operation name args previous c).reply.result with
  | ok value => rfl
  | error failure => cases failure <;> rfl

/-- Steps that are run in a context see a value under a path: conditions on the path, comparisons
with it, and the path as the argument of a call or as a field of one. -/
structure Sees (pipeline : Pipeline) (c : Context) (path : String) (value : Value) : Prop where
  stands : c.StandsFor path value
  tested : Expression.Word path → path ≠ "if" → ∀ body other previous,
    pipeline.run (ifElse path body other) previous c =
      pipeline.run (if value.truthy then body else other) previous c
  compared : ∀ condition right, Text.trim condition.toList = condition.toList →
    Expression.parse condition = .ok (.compare (.word path) .equal right) →
    ∀ body other previous, pipeline.run (ifElse condition body other) previous c =
      pipeline.run (if (Resolved.value value).equals (right.resolveRight c) then body else other)
        previous c
  passed : ∀ name operation, pipeline.registry.get? name = some operation →
    isConditionKey name = false → name ≠ handlerKey →
    textHasPlaceholder path.toList = false → path.toList.any Text.isBlank = false →
    ∀ previous, (pipeline.run (.object [(name, .string path)]) previous c).calls =
      [⟨name, value, c, previous, operation value c previous⟩]
  included : ∀ name operation key (before after : Entries Value),
    pipeline.registry.get? name = some operation →
    isConditionKey name = false → name ≠ handlerKey →
    textHasPlaceholder path.toList = false → path.toList.any Text.isBlank = false →
    (∀ entry ∈ after, compileKey pipeline.options c entry.1 ≠ compileKey pipeline.options c key) →
    ∀ previous, ∃ compiled : Entries Value,
      (pipeline.run (.object [(name, .object (before ++ (key, .string path) :: after))])
        previous c).calls =
          [⟨name, .object compiled, c, previous, operation (.object compiled) c previous⟩] ∧
      compiled.get? (compileKey pipeline.options c key) = some value

theorem sees_of_get? (pipeline : Pipeline) {path : String} {value : Value}
    (found : c.get? path = some value) : pipeline.Sees c path value := by
  have stands := Context.standsFor_of_get? found
  refine ⟨stands, ?_, ?_, ?_, ?_⟩
  · intro word unlike body other previous
    have trimmed : Text.trim path.toList = path.toList :=
      Text.trim_of_not_blank fun c member => (word.bare.unbroken c member).1
    rw [run_ifElse body other previous trimmed (Expression.parse_word word unlike),
      Expression.eval, stands.truthy]
  · intro condition right trimmed parsed body other previous
    rw [run_ifElse body other previous trimmed parsed, Expression.eval, Comparison.holds,
      stands.left]
  · intro name operation registered plain other unfilled bare previous
    rw [calls_run_single registered plain other]
    simp only [callOf, stands.argument pipeline.options unfilled bare]
  · intro name operation key before after registered plain other unfilled bare last previous
    obtain ⟨compiled, whole, held⟩ :=
      Template.exists_get?_compile_object (.string path) before last
    rw [stands.argument pipeline.options unfilled bare] at held
    refine ⟨compiled, ?_, held⟩
    rw [calls_run_single registered plain other]
    simp only [callOf, whole]

theorem run_set (registered : pipeline.registry.get? "context.set" = some Operation.setVariables)
    {args : Value} {entries : Entries Value}
    (compiled : compile pipeline.options c args = .object entries) (previous : Value) :
    pipeline.run (.object [("context.set", args)]) previous c =
      { result := .ok (.proceed previous), context := c.setAll entries,
        calls := [⟨"context.set", .object entries, c, previous,
          ⟨.ok previous, c.setAll entries, []⟩⟩],
        events := [.running "context.set"] } := by
  have plain : isConditionKey "context.set" = false := by decide
  have other : "context.set" ≠ handlerKey := by decide
  have single := run_callStep pipeline none ("context.set", args) plain other previous c
  rw [callStep, Option.toList_none, List.map_nil, Option.map_none,
    callAll_of_some pipeline registered] at single
  rw [single]
  simp only [callOf, compiled, Operation.setVariables_object]
  rfl

theorem run_concat (pipeline : Pipeline) (items : List Value) {step : Value}
    (fits : isStep step = true) (previous : Value) (c : Context) :
    pipeline.run (.array (items ++ [step])) previous c =
      (pipeline.run (.array items) previous c).andThen (pipeline.run step) := by
  rw [run_array, List.map_append, row_append, ← run_array, List.map_singleton]
  congr 1
  funext result left
  rw [row_cons_of_isStep fits]
  exact Run.andThen_proceed _

/-- After a write to a path without brackets and without empty parts the path stands for the value,
or for the old one of a dotted top-level name that is the whole path. In a pipeline `context.set`
writes its entries one after the other. A later step sees each value that no later entry writes
over, under or above, as long as the steps in between leave the path alone. -/
theorem steps_read_what_is_set (c : Context) (path : String) (value : Value)
    (parts : ∀ part ∈ path.toList.splitOn '.', part ≠ []) (plain : '[' ∉ path.toList) :
    let stored := c.readBack path value
    (c.setPath path value).StandsFor path stored ∧
    ∀ (pipeline : Pipeline) (args previous : Value) (before after : Entries Value),
      pipeline.registry.get? "context.set" = some Operation.setVariables →
      compile pipeline.options c args = .object (before ++ (path, value) :: after) →
      (∀ entry ∈ after, Context.Spares entry.1 (Context.names path)) →
      let set : Value := .object [("context.set", args)]
      let first := pipeline.run set previous c
      first.result = .ok (.proceed previous) ∧
      first.context = c.setAll (before ++ (path, value) :: after) ∧
      pipeline.Sees first.context path stored ∧
      ∀ between result,
        let front := pipeline.run (.array (set :: between)) previous c
        front.result = .ok (.proceed result) →
        front.context.get? path = first.context.get? path →
        pipeline.Sees front.context path stored ∧
        ∀ step, isStep step = true →
          let second := pipeline.run step result front.context
          pipeline.run (.array (set :: between ++ [step])) previous c =
            { result := second.result, context := second.context,
              calls := front.calls ++ second.calls, events := front.events ++ second.events } := by
  intro stored
  refine ⟨Context.standsFor_of_get? (Context.get?_setPath c value parts plain), ?_⟩
  intro pipeline args previous before after registered compiled spares set first
  have whole := run_set registered compiled previous
  have context : first.context = c.setAll (before ++ (path, value) :: after) :=
    congrArg Run.context whole
  have read : first.context.get? path = some stored := by
    rw [context]
    exact Context.get?_setAll c value parts plain before spares
  refine ⟨congrArg Run.result whole, context, sees_of_get? pipeline read, ?_⟩
  intro between result front proceeds kept
  refine ⟨sees_of_get? pipeline (kept.trans read), fun step fits => ?_⟩
  rw [run_concat pipeline (set :: between) fits, Run.andThen_of_proceed proceeds]

/-- A number gives way to an object, and the step in between calls an operation that only reports.
-/
theorem steps_read_what_is_set_after_log :
    let c : Context := ⟨[("user", .int 5)]⟩
    let pipeline : Pipeline := ⟨.withBuiltins, {}⟩
    let args : Value := .object [("user.active", .bool true), ("user.name", .null)]
    let step := ifElse "user.active" (.object [("flow.log", .string "user.active")]) .null
    let steps : List Value := [.object [("context.set", args)], .string "flow.log", step]
    (pipeline.run (.array steps) .null c).calls.getLast?.map (·.args) = some (.bool true) := by
  intro c pipeline args step steps
  have set : pipeline.registry.get? "context.set" = some Operation.setVariables :=
    Operation.get?_withBuiltins (by simp [Operation.builtins])
  have log : pipeline.registry.get? "flow.log" = some Operation.log :=
    Operation.get?_withBuiltins (by simp [Operation.builtins])
  have keys : ∀ key ∈ ["user.active", "user.name"], '$' ∉ key.toList := by decide
  have compiled : compile pipeline.options c args = args := by
    rw [Template.compile_object_eq, List.map_cons, List.map_cons, List.map_nil,
      Template.compileKey_of_plain (keys _ (by simp)),
      Template.compileKey_of_plain (keys _ (by simp))]
    rfl
  obtain ⟨proceeds, -, -, onward⟩ :=
    (steps_read_what_is_set c "user.active" (.bool true) (by decide) (by decide)).2 pipeline args
      .null [] [("user.name", .null)] set compiled (by decide)
  -- What is reported in between leaves the context as it is.
  have report : isStep (.string "flow.log") = true := rfl
  have between := run_concat pipeline [.object [("context.set", args)]] report .null c
  rw [run_singleton pipeline rfl, Run.andThen_of_proceed proceeds, run_string,
    named_of_some pipeline log] at between
  obtain ⟨sees, last⟩ := onward [.string "flow.log"] .null (congrArg Run.result between)
    (congrArg (·.context.get? "user.active") between)
  have word : Expression.Word "user.active" := ⟨by decide, rfl⟩
  have read : c.readBack "user.active" (.bool true) = .bool true := rfl
  rw [read] at sees
  have chosen := sees.tested word (by decide) (.object [("flow.log", .string "user.active")]) .null
    .null
  have passed := sees.passed "flow.log" Operation.log log (by decide) (by decide)
    (Template.textHasPlaceholder_of_plain (keys _ (by simp))) (by decide) .null
  have truthy : (Value.bool true).truthy = true := rfl
  rw [truthy, if_pos rfl] at chosen
  have whole := congrArg Run.calls (last step rfl)
  simp only [step, chosen, passed] at whole
  have listed : steps = .object [("context.set", args)] :: [.string "flow.log"] ++ [step] := rfl
  rw [listed, whole, List.getLast?_concat]
  rfl

end Pipeline

end Docscript

import Docscript.Pipeline
import Docscript.Proofs.ConditionBlock.Selection

set_option autoImplicit false

namespace Docscript

namespace Run

variable {α β : Type}

theorem bind_done (run : Run α) (value : β) :
    (run.bind fun _ c => done value c) =
      { result := run.result.map fun _ => value, context := run.context, calls := run.calls,
        events := run.events } := by
  unfold bind
  cases run.result with
  | error error => rfl
  | ok _ => simp [done, Except.map]

/-- Puts a call before all calls of a run, with what was reported for it. -/
def record (call : Call) (run : Run α) : Run α :=
  { run with
    calls := call :: run.calls,
    events := .running call.operation :: call.reply.events ++ run.events }

end Run

namespace Pipeline

variable (pipeline : Pipeline)

/-- The call of an operation with arguments compiled in the current context. -/
def callOf (operation : Operation) (name : String) (args previous : Value) (c : Context) : Call :=
  let compiled := Template.compile pipeline.options c args
  ⟨name, compiled, c, previous, operation compiled c previous⟩

theorem call_bind_of_none {α : Type} {name : String}
    (missing : pipeline.registry.get? name = none) (args previous : Value) (c : Context)
    (next : Except Failure Value → Context → Run α) :
    (pipeline.call name args previous c).bind next = .fail (.operationMissing name) c := by
  simp only [call, missing, Run.bind, Run.fail]

theorem call_bind_of_some {α : Type} {name : String} {operation : Operation}
    (registered : pipeline.registry.get? name = some operation) (args previous : Value)
    (c : Context) (next : Except Failure Value → Context → Run α) :
    (pipeline.call name args previous c).bind next =
      (next (pipeline.callOf operation name args previous c).reply.result
        (pipeline.callOf operation name args previous c).reply.context).record
        (pipeline.callOf operation name args previous c) := by
  simp only [call, registered, Run.bind, Run.record, callOf, List.cons_append, List.nil_append]

theorem named_of_none {name : String} (missing : pipeline.registry.get? name = none)
    (previous : Value) (c : Context) :
    pipeline.named name previous c = .fail (.operationMissing name) c :=
  call_bind_of_none pipeline missing (.object []) previous c _

theorem named_of_some {name : String} {operation : Operation}
    (registered : pipeline.registry.get? name = some operation) (previous : Value) (c : Context) :
    pipeline.named name previous c =
      let call := pipeline.callOf operation name (.object []) previous c
      Run.record call
        (match call.reply.result with
          | .ok value => .done (.proceed value) call.reply.context
          | .error .abort => .done .aborted call.reply.context
          | .error (.failed message data) => stop name message data call.reply.context) :=
  call_bind_of_some pipeline registered (.object []) previous c _

/-- The meaning of an entry of a step. -/
def entryOf (entry : String × Value) : StepEntry :=
  ⟨entry.1, entry.2, pipeline.run entry.2⟩

theorem callAll_of_none {name : String} (missing : pipeline.registry.get? name = none)
    (handler : Option Stage) (args : Value) (rest : List StepEntry) (previous : Value)
    (c : Context) :
    pipeline.callAll handler (pipeline.entryOf (name, args) :: rest) previous c =
      .fail (.operationMissing name) c := by
  rw [callAll]
  exact call_bind_of_none pipeline missing args previous c _

theorem callAll_of_some {name : String} {operation : Operation}
    (registered : pipeline.registry.get? name = some operation) (handler : Option Stage)
    (args : Value) (rest : List StepEntry) (previous : Value) (c : Context) :
    pipeline.callAll handler (pipeline.entryOf (name, args) :: rest) previous c =
      let call := pipeline.callOf operation name args previous c
      Run.record call
        (match call.reply.result with
          | .ok value => pipeline.callAll handler rest value call.reply.context
          | .error .abort =>
            (Run.done .aborted call.reply.context).after (.abortRequested name)
          | .error (.failed message data) =>
            match handler with
            | none => stop name message data call.reply.context
            | some handler =>
              ((handler (Failure.failed message data).payload call.reply.context).bind
                fun _ c => .done .aborted c).after (.handling name message)) := by
  rw [callAll]
  exact call_bind_of_some pipeline registered args previous c _

theorem stepEntries_eq_map (entries : List (String × Value)) :
    stepEntries pipeline entries = entries.map pipeline.entryOf := by
  induction entries with
  | nil => rw [stepEntries, List.map_nil]
  | cons entry rest ih =>
    rw [stepEntries, List.map_cons, ih]
    rfl

theorem rowItems_eq_map (items : List Value) :
    rowItems pipeline items = items.map fun item => ⟨item, pipeline.run item⟩ := by
  induction items with
  | nil => rw [rowItems, List.map_nil]
  | cons item rest ih =>
    rw [rowItems, List.map_cons, ih]
    rfl

/-- Whether a step is a block. -/
def isBlock (entries : List (String × Value)) : Bool := entries.any (isConditionKey ·.1)

theorem run_string (name : String) (previous : Value) (c : Context) :
    pipeline.run (.string name) previous c = pipeline.named name previous c := by
  rw [run, stage]

theorem run_array (items : List Value) (previous : Value) (c : Context) :
    pipeline.run (.array items) previous c =
      row 0 (items.map fun item => ⟨item, pipeline.run item⟩) previous c := by
  rw [run, stage, rowItems_eq_map]

theorem run_block {entries : List (String × Value)} (block : isBlock entries = true)
    (previous : Value) (c : Context) :
    pipeline.run (.object entries) previous c =
      match ConditionBlock.ofEntries entries with
      | .error error => .fail error c
      | .ok formed =>
        match formed.select c with
        | some schema => pipeline.run schema previous c
        | none => .done (.proceed previous) c := by
  have keyed : (entries.map pipeline.entryOf).any (isConditionKey ·.key) = true := by
    simpa [List.any_map, Function.comp_def, entryOf, isBlock] using block
  have bodies : (entries.map pipeline.entryOf).map (fun entry => (entry.key, entry.stage)) =
      entries.map fun entry => (entry.1, pipeline.run entry.2) := by
    simp [entryOf, Function.comp_def]
  rw [run, stage, stepEntries_eq_map, step, if_pos keyed, branch, bodies,
    ConditionBlock.ofEntries_map]
  cases ConditionBlock.ofEntries entries with
  | error error => rfl
  | ok formed =>
    simp only [Except.map, ConditionBlock.select_map]
    cases formed.select c <;> rfl

theorem handler_entryOf (entries : List (String × Value)) :
    ((entries.map pipeline.entryOf).find? (·.key == handlerKey)).map (·.stage) =
      (Entries.get? entries handlerKey).map pipeline.run := by
  induction entries with
  | nil => rfl
  | cons entry rest ih =>
    obtain ⟨key, value⟩ := entry
    by_cases same : key = handlerKey
    · simp [entryOf, Entries.get?, same]
    · have other : ((pipeline.entryOf (key, value)).key == handlerKey) = false := by
        simp [entryOf, same]
      rw [List.map_cons, List.find?_cons, other, Entries.get?, if_neg same]
      exact ih

theorem run_step {entries : List (String × Value)} (plain : isBlock entries = false)
    (previous : Value) (c : Context) :
    pipeline.run (.object entries) previous c =
      pipeline.callAll ((Entries.get? entries handlerKey).map pipeline.run)
        ((entries.filter (·.1 != handlerKey)).map pipeline.entryOf) previous c := by
  have keyed : (entries.map pipeline.entryOf).any (isConditionKey ·.key) = false := by
    simpa [List.any_map, Function.comp_def, entryOf, isBlock] using plain
  rw [run, stage, stepEntries_eq_map, step, if_neg (by simp [keyed]), handler_entryOf,
    List.filter_map]
  rfl

end Pipeline

end Docscript

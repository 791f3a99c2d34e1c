import Docscript.ConditionBlock
import Docscript.Operation.Registry
import Docscript.Template

/- A run has a result, the context it leaves behind, and the calls and events on its way. Like a
document, a schema is given its meaning from the meanings of its parts, so that a branch runs only
if it is selected and a handler only after a failure. -/

set_option autoImplicit false

namespace Docscript

/-- A call of an operation under the name that the schema has for it. -/
structure Call where
  operation : String
  args : Value
  context : Context
  previous : Value
  reply : Reply

structure Run (α : Type) where
  result : Except Error α
  context : Context
  calls : List Call := []
  events : List Event := []

namespace Run

variable {α β : Type}

def done (value : α) (c : Context) : Run α := { result := .ok value, context := c }

def fail (error : Error) (c : Context) : Run α := { result := .error error, context := c }

/-- Goes on after a run that has a result. -/
def bind (first : Run α) (next : α → Context → Run β) : Run β :=
  match first.result with
  | .error error =>
    { result := .error error, context := first.context, calls := first.calls,
      events := first.events }
  | .ok value =>
    let second := next value first.context
    { result := second.result, context := second.context, calls := first.calls ++ second.calls,
      events := first.events ++ second.events }

/-- Reports an event before all others of the run. -/
def after (event : Event) (run : Run α) : Run α := { run with events := event :: run.events }

theorem bind_of_error {first : Run α} {error : Error} (failed : first.result = .error error)
    (next : α → Context → Run β) :
    first.bind next =
      { result := .error error, context := first.context, calls := first.calls,
        events := first.events } := by
  simp only [bind, failed]

theorem calls_bind_of_ok {first : Run α} {value : α} (success : first.result = .ok value)
    (next : α → Context → Run β) :
    (first.bind next).calls = first.calls ++ (next value first.context).calls := by
  simp only [bind, success]

theorem result_bind_of_ok {first : Run α} {value : α} (success : first.result = .ok value)
    (next : α → Context → Run β) :
    (first.bind next).result = (next value first.context).result := by
  simp only [bind, success]

theorem context_bind_of_ok {first : Run α} {value : α} (success : first.result = .ok value)
    (next : α → Context → Run β) :
    (first.bind next).context = (next value first.context).context := by
  simp only [bind, success]

end Run

/-- How a part of a pipeline ends: with the result for the next part, or with everything stopped. -/
inductive Flow where
  | proceed (value : Value)
  | aborted

/-- The meaning of a schema: a run from the previous result in a context. -/
abbrev Stage := (previous : Value) → (c : Context) → Run Flow

structure Pipeline where
  registry : Registry
  options : CompileOptions := {}

namespace Pipeline

/-- Calls an operation with arguments compiled in the current context. -/
def call (pipeline : Pipeline) (name : String) (args previous : Value) (c : Context) :
    Run (Except Failure Value) :=
  match pipeline.registry.get? name with
  | none => .fail (.operationMissing name) c
  | some operation =>
    let compiled := Template.compile pipeline.options c args
    let reply := operation compiled c previous
    { result := .ok reply.result, context := reply.context,
      calls := [⟨name, compiled, c, previous, reply⟩], events := .running name :: reply.events }

/-- The end of a pipeline at an operation whose failure nothing handles. -/
def stop (name message : String) (data : Value) (c : Context) : Run Flow :=
  (Run.fail (.operationFailed name message data) c).after (.failed name message)

/-- A call by name alone, with no arguments. -/
def named (pipeline : Pipeline) (name : String) : Stage := fun previous c =>
  (pipeline.call name (.object []) previous c).bind fun result c =>
    match result with
    | .ok value => .done (.proceed value) c
    | .error .abort => .done .aborted c
    | .error (.failed message data) => stop name message data c

/-- An entry of a step: its key, what stands under it as arguments, and what that means as a
schema. -/
structure StepEntry where
  key : String
  args : Value
  stage : Stage

/-- The key under which a step keeps its handler of failures. -/
def handlerKey : String := "on_error"

/-- Calls operations one after the other. A failure goes to the handler, after which nothing more
is done. -/
def callAll (pipeline : Pipeline) (handler : Option Stage) : List StepEntry → Stage
  | [], previous => Run.done (.proceed previous)
  | entry :: rest, previous => fun c =>
    (pipeline.call entry.key entry.args previous c).bind fun result c =>
      match result with
      | .ok value => callAll pipeline handler rest value c
      | .error .abort => (Run.done .aborted c).after (.abortRequested entry.key)
      | .error (.failed message data) =>
        match handler with
        | none => stop entry.key message data c
        | some handler =>
          ((handler (Failure.failed message data).payload c).bind
            fun _ c => .done .aborted c).after (.handling entry.key message)

/-- The branch of a block that is selected; without one the previous result stays. -/
def branch (entries : List StepEntry) : Stage := fun previous c =>
  match ConditionBlock.ofEntries (entries.map fun entry => (entry.key, entry.stage)) with
  | .error error => .fail error c
  | .ok block =>
    match block.select c with
    | some stage => stage previous c
    | none => .done (.proceed previous) c

/-- A step: a block if some key is a condition, else calls with an optional handler. -/
def step (pipeline : Pipeline) (entries : List StepEntry) : Stage :=
  if entries.any (isConditionKey ·.key) then branch entries
  else
    let handler := (entries.find? (·.key == handlerKey)).map (·.stage)
    callAll pipeline handler (entries.filter (·.key != handlerKey))

/-- An element of a row of steps and what it means as a schema. -/
structure RowItem where
  schema : Value
  stage : Stage

def isStep : Value → Bool
  | .object _ => true
  | .string _ => true
  | _ => false

/-- Runs steps one after the other, the first of which has the given position. -/
def row (position : Nat) : List RowItem → Stage
  | [], previous => Run.done (.proceed previous)
  | item :: rest, previous => fun c =>
    if isStep item.schema then
      (item.stage previous c).bind fun flow c =>
        match flow with
        | .proceed value => row (position + 1) rest value c
        | .aborted => .done .aborted c
    else .fail (.schema (.step position item.schema)) c

mutual

/-- The meaning of a schema. -/
def stage (pipeline : Pipeline) : Value → Stage
  | .string name => pipeline.named name
  | .object entries => pipeline.step (stepEntries pipeline entries)
  | .array items => row 0 (rowItems pipeline items)
  | .null => fun _ => Run.fail (.schema (.shape .null))
  | .bool b => fun _ => Run.fail (.schema (.shape (.bool b)))
  | .number n => fun _ => Run.fail (.schema (.shape (.number n)))

def stepEntries (pipeline : Pipeline) : List (String × Value) → List StepEntry
  | [] => []
  | (key, value) :: rest => ⟨key, value, stage pipeline value⟩ :: stepEntries pipeline rest

def rowItems (pipeline : Pipeline) : List Value → List RowItem
  | [] => []
  | item :: rest => ⟨item, stage pipeline item⟩ :: rowItems pipeline rest

end

/-- Runs a schema and leaves an abort visible. -/
def run (pipeline : Pipeline) (schema previous : Value) (c : Context) : Run Flow :=
  pipeline.stage schema previous c

/-- Runs a schema to its end. There is no result if the pipeline was aborted. -/
def handle (pipeline : Pipeline) (schema previous : Value) (c : Context) : Run (Option Value) :=
  (pipeline.run schema previous c).bind fun flow c =>
    match flow with
    | .proceed value => .done (some value) c
    | .aborted => { result := .ok none, context := c, events := [.pipelineAborted] }

end Pipeline

end Docscript

import Docscript.Proofs.Pipeline.Sequencing

set_option autoImplicit false

namespace Docscript

namespace Run

theorem record_bind {α β : Type} (call : Call) (run : Run α) (next : α → Context → Run β) :
    (run.record call).bind next = (run.bind next).record call := by
  obtain ⟨result, left, calls, events⟩ := run
  cases result <;> simp [bind, record]

theorem record_andThen (call : Call) (run : Run Flow) (next : Stage) :
    (run.record call).andThen next = (run.andThen next).record call :=
  record_bind call run _

theorem after_andThen (event : Event) (run : Run Flow) (next : Stage) :
    (run.after event).andThen next = (run.andThen next).after event :=
  after_bind event run _

theorem aborted_andThen {α : Type} (run : Run α) (next : Stage) :
    (run.bind fun _ c => done .aborted c).andThen next = run.bind fun _ c => done .aborted c := by
  rw [andThen, bind_assoc]
  rfl

end Run

namespace Pipeline

variable (pipeline : Pipeline)

/-- The calls of a step are made one by one: the others come after the first one proceeds. -/
theorem callAll_cons (handler : Option Stage) (entry : String × Value) (rest : List StepEntry)
    (previous : Value) (c : Context) :
    pipeline.callAll handler (pipeline.entryOf entry :: rest) previous c =
      (pipeline.callAll handler [pipeline.entryOf entry] previous c).andThen
        (pipeline.callAll handler rest) := by
  obtain ⟨name, args⟩ := entry
  cases registered : pipeline.registry.get? name with
  | none =>
    rw [callAll_of_none pipeline registered, callAll_of_none pipeline registered]
    rfl
  | some operation =>
    rw [callAll_of_some pipeline registered, callAll_of_some pipeline registered]
    dsimp only
    rw [Run.record_andThen]
    congr 1
    cases (pipeline.callOf operation name args previous c).reply.result with
    | ok value => rfl
    | error failure =>
      cases failure with
      | abort => rfl
      | failed message data =>
        cases handler with
        | none => rfl
        | some handler =>
          dsimp only
          rw [Run.after_andThen, Run.aborted_andThen]

/-- A step with one call, and with a handler if there is one. -/
def callStep (handler : Option Value) (entry : String × Value) : Value :=
  .object (entry :: handler.toList.map fun schema => (handlerKey, schema))

/-- The row of steps with one call each that a step stands for, each with the handler of the step.
-/
def callSteps (entries : Entries Value) : List Value :=
  (entries.filter (·.1 != handlerKey)).map (callStep (entries.get? handlerKey))

theorem isConditionKey_handlerKey : isConditionKey handlerKey = false := by decide

theorem run_callStep (handler : Option Value) (entry : String × Value)
    (plain : isConditionKey entry.1 = false) (other : entry.1 ≠ handlerKey) (previous : Value)
    (c : Context) :
    pipeline.run (callStep handler entry) previous c =
      pipeline.callAll (handler.map pipeline.run) [pipeline.entryOf entry] previous c := by
  have kept : (entry.1 != handlerKey) = true := by simpa using other
  cases handler with
  | none =>
    have single : isBlock [entry] = false := by simp [isBlock, plain]
    have absent : Entries.get? [entry] handlerKey = none := by
      rw [Entries.get?, if_neg other, Entries.get?]
    rw [callStep, Option.toList_none, List.map_nil, run_step pipeline single, absent]
    simp [kept]
  | some schema =>
    have pair : isBlock [entry, (handlerKey, schema)] = false := by
      simp [isBlock, plain, isConditionKey_handlerKey]
    have found : Entries.get? [entry, (handlerKey, schema)] handlerKey = some schema := by
      rw [Entries.get?, if_neg other, Entries.get?, if_pos rfl]
    rw [callStep, Option.toList_some, List.map_singleton, run_step pipeline pair, found]
    simp [kept]

/-- Steps with one call each, in a row from any position on, make their calls like one step. -/
theorem row_callSteps (handler : Option Value) {entries : List (String × Value)}
    (plain : ∀ entry ∈ entries, isConditionKey entry.1 = false)
    (others : ∀ entry ∈ entries, entry.1 ≠ handlerKey) (position : Nat) (previous : Value)
    (c : Context) :
    row position ((entries.map (callStep handler)).map fun item => ⟨item, pipeline.run item⟩)
        previous c =
      pipeline.callAll (handler.map pipeline.run) (entries.map pipeline.entryOf) previous c := by
  induction entries generalizing position previous c with
  | nil => rfl
  | cons entry rest ih =>
    rw [List.forall_mem_cons] at plain others
    simp only [List.map_cons]
    rw [row_cons_of_isStep rfl, callAll_cons]
    dsimp only
    rw [run_callStep pipeline handler entry plain.1 others.1]
    congr 1
    funext value left
    exact ih plain.2 others.2 (position + 1) value left

/-- What schemas of one shape mean in another one. A step that is no block runs like the row of
steps with one call each. A name runs like the step that calls it with no arguments, but a step
reports that its operation requested an abort. -/
theorem schemas_desugar (previous : Value) (c : Context) :
    (∀ entries, isBlock entries = false →
      pipeline.run (.object entries) previous c =
        pipeline.run (.array (callSteps entries)) previous c) ∧
    ∀ name, isConditionKey name = false → name ≠ handlerKey →
      let named := pipeline.run (.string name) previous c
      pipeline.run (.object [(name, .object [])]) previous c =
        { named with
          events := named.events ++
            match named.result with
            | .ok .aborted => [.abortRequested name]
            | _ => [] } := by
  refine ⟨fun entries plain => ?_, fun name plain other => ?_⟩
  · have each : ∀ entry ∈ entries, isConditionKey entry.1 = false := by
      simpa [isBlock] using plain
    rw [run_step pipeline plain, run_array, callSteps, row_callSteps]
    · exact fun entry member => each entry (List.mem_filter.mp member).1
    · intro entry member
      simpa using (List.mem_filter.mp member).2
  · have alone : Value.object [(name, .object [])] = callStep none (name, .object []) := rfl
    rw [alone, run_callStep pipeline none (name, .object []) plain other, run_string,
      Option.map_none]
    cases registered : pipeline.registry.get? name with
    | none =>
      rw [callAll_of_none pipeline registered, named_of_none pipeline registered]
      rfl
    | some operation =>
      rw [callAll_of_some pipeline registered, named_of_some pipeline registered]
      dsimp only
      cases (pipeline.callOf operation name (.object []) previous c).reply.result with
      | ok value => simp [Run.record, Run.done, callAll]
      | error failure =>
        cases failure with
        | abort => simp [Run.record, Run.done, Run.after]
        | failed message data => simp [Run.record, stop, Run.after, Run.fail]

/-- A step whose second call fails and is handled, and the name of an operation that requests an
abort. -/
theorem schemas_desugar_of_handled_failure :
    let keep : Operation := fun args c previous => ⟨.ok args, c.insert "kept" previous, []⟩
    let refuse : Operation := fun args c _ => ⟨.error (.failed "refused" args), c, []⟩
    let halt : Operation := fun _ c _ => ⟨.error .abort, c, []⟩
    let pipeline : Pipeline :=
      ⟨⟨[("keep", ⟨"host", keep⟩), ("refuse", ⟨"host", refuse⟩), ("halt", ⟨"host", halt⟩)]⟩, {}⟩
    let entries : Entries Value :=
      [("keep", .int 1), ("on_error", .string "keep"), ("refuse", .int 2)]
    let named := pipeline.run (.string "halt") (.int 7) .empty
    isBlock entries = false ∧
      pipeline.run (.object entries) (.int 7) .empty =
        pipeline.run (.array [.object [("keep", .int 1), ("on_error", .string "keep")],
          .object [("refuse", .int 2), ("on_error", .string "keep")]]) (.int 7) .empty ∧
      (pipeline.run (.object entries) (.int 7) .empty).calls.map Call.operation =
        ["keep", "refuse", "keep"] ∧
      isConditionKey "halt" = false ∧ "halt" ≠ handlerKey ∧
      pipeline.run (.object [("halt", .object [])]) (.int 7) .empty =
        { named with events := named.events ++ [.abortRequested "halt"] } :=
  ⟨rfl, (schemas_desugar _ _ _).1 _ rfl, rfl, rfl, by decide,
    (schemas_desugar _ _ _).2 "halt" rfl (by decide)⟩

end Pipeline

end Docscript

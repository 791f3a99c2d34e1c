import Docscript.Proofs.Pipeline.Stage

set_option autoImplicit false

namespace Docscript

def Call.failed (call : Call) : Bool :=
  match call.reply.result with
  | .error (.failed _ _) => true
  | _ => false

def failures (calls : List Call) : Nat := calls.countP (·.failed)

def warnings (events : List Event) : Nat := events.countP (·.level == .warn)

@[simp] theorem warnings_append (events others : List Event) :
    warnings (events ++ others) = warnings events + warnings others :=
  List.countP_append

theorem warnings_cons_of_warn {event : Event} (loud : event.level = .warn) (events : List Event) :
    warnings (event :: events) = warnings events + 1 :=
  List.countP_cons_of_pos (by rw [loud]; rfl)

theorem warnings_cons_of_ne {event : Event} (quiet : event.level ≠ .warn) (events : List Event) :
    warnings (event :: events) = warnings events :=
  List.countP_cons_of_neg (by rwa [beq_iff_eq])

namespace Run

variable {α β : Type}

/-- Each warning is one of an operation or stands for a call that failed. -/
def Tallied (run : Run α) : Prop :=
  warnings run.events = failures run.calls + warnings (run.calls.flatMap (·.reply.events))

theorem tallied_done (value : α) (c : Context) : (done value c).Tallied := rfl

theorem tallied_fail (error : Error) (c : Context) : (fail error c : Run α).Tallied := rfl

theorem Tallied.after_of_ne {run : Run α} {event : Event} (tallied : run.Tallied)
    (quiet : event.level ≠ .warn) : (run.after event).Tallied := by
  rw [Tallied, after, warnings_cons_of_ne quiet]
  exact tallied

theorem Tallied.bind {first : Run α} {next : α → Context → Run β} (tallied : first.Tallied)
    (others : ∀ value c, (next value c).Tallied) : (first.bind next).Tallied := by
  cases ended : first.result with
  | error error =>
    rw [bind_of_error ended]
    exact tallied
  | ok value =>
    have rest := others value first.context
    simp only [Run.bind, ended]
    rw [Tallied] at tallied rest ⊢
    simp only [failures, List.countP_append, List.flatMap_append, warnings_append] at *
    omega

theorem warnings_record (call : Call) (run : Run α) :
    warnings (run.record call).events = warnings call.reply.events + warnings run.events := by
  rw [record, List.cons_append, warnings_cons_of_ne (fun same => by cases same), warnings_append]

theorem Tallied.record_of_not {run : Run α} {call : Call} (tallied : run.Tallied)
    (unfailed : call.failed = false) : (run.record call).Tallied := by
  have counted : failures (call :: run.calls) = failures run.calls :=
    List.countP_cons_of_neg (by rw [unfailed]; exact Bool.false_ne_true)
  rw [Tallied] at tallied ⊢
  rw [warnings_record, record, counted, List.flatMap_cons, warnings_append]
  omega

theorem Tallied.record_of_failed {run : Run α} {call : Call} {event : Event}
    (tallied : run.Tallied) (failed : call.failed = true) (loud : event.level = .warn) :
    ((run.after event).record call).Tallied := by
  have counted : failures (call :: run.calls) = failures run.calls + 1 :=
    List.countP_cons_of_pos failed
  rw [Tallied] at tallied ⊢
  rw [warnings_record, after, record, counted, List.flatMap_cons, warnings_append]
  dsimp only
  rw [warnings_cons_of_warn loud]
  omega

end Run

namespace Pipeline

variable {pipeline : Pipeline}

theorem tallied_named (name : String) (previous : Value) (c : Context) :
    (pipeline.named name previous c).Tallied := by
  cases registered : pipeline.registry.get? name with
  | none =>
    rw [named_of_none pipeline registered]
    exact Run.tallied_fail _ c
  | some operation =>
    rw [named_of_some pipeline registered]
    dsimp only
    generalize pipeline.callOf operation name (.object []) previous c = call
    cases answer : call.reply.result with
    | ok value => exact (Run.tallied_done _ _).record_of_not (by rw [Call.failed, answer])
    | error failure =>
      cases failure with
      | abort => exact (Run.tallied_done _ _).record_of_not (by rw [Call.failed, answer])
      | failed message data =>
        exact (Run.tallied_fail _ _).record_of_failed (by rw [Call.failed, answer]) rfl

theorem tallied_callAll {handler : Option Stage}
    (tallied : ∀ stage, handler = some stage → ∀ previous c, (stage previous c).Tallied)
    (entries : List (String × Value)) (previous : Value) (c : Context) :
    (pipeline.callAll handler (entries.map pipeline.entryOf) previous c).Tallied := by
  induction entries generalizing previous c with
  | nil => exact Run.tallied_done _ c
  | cons entry rest ih =>
    obtain ⟨name, args⟩ := entry
    rw [List.map_cons]
    cases registered : pipeline.registry.get? name with
    | none =>
      rw [callAll_of_none pipeline registered]
      exact Run.tallied_fail _ c
    | some operation =>
      rw [callAll_of_some pipeline registered]
      dsimp only
      generalize pipeline.callOf operation name args previous c = call
      cases answer : call.reply.result with
      | ok value => exact (ih value _).record_of_not (by rw [Call.failed, answer])
      | error failure =>
        cases failure with
        | abort =>
          have quiet : (Event.abortRequested name).level ≠ .warn := fun same => by cases same
          exact ((Run.tallied_done _ _).after_of_ne quiet).record_of_not
            (by rw [Call.failed, answer])
        | failed message data =>
          have failed : call.failed = true := by rw [Call.failed, answer]
          cases handler with
          | none => exact (Run.tallied_fail _ _).record_of_failed failed rfl
          | some stage =>
            have handled := tallied stage rfl (Failure.failed message data).payload
              call.reply.context
            exact (handled.bind fun _ _ => Run.tallied_done _ _).record_of_failed failed rfl

theorem tallied_row {items : List Value}
    (tallied : ∀ item ∈ items, ∀ previous c, (pipeline.run item previous c).Tallied)
    (position : Nat) (previous : Value) (c : Context) :
    (row position (items.map fun item => ⟨item, pipeline.run item⟩) previous c).Tallied := by
  induction items generalizing position previous c with
  | nil => exact Run.tallied_done _ c
  | cons item rest ih =>
    rw [List.forall_mem_cons] at tallied
    rw [List.map_cons, row]
    dsimp only
    cases isStep item with
    | false => exact Run.tallied_fail _ c
    | true =>
      rw [if_pos rfl]
      refine (tallied.1 previous c).bind fun flow c => ?_
      cases flow with
      | proceed value => exact ih tallied.2 (position + 1) value c
      | aborted => exact Run.tallied_done _ c

theorem tallied_run (pipeline : Pipeline) (schema previous : Value) (c : Context) :
    (pipeline.run schema previous c).Tallied := by
  induction schema using Value.induction_parts generalizing previous c with
  | null => exact Run.tallied_fail _ c
  | bool b => exact Run.tallied_fail _ c
  | number n => exact Run.tallied_fail _ c
  | string name =>
    rw [run_string]
    exact tallied_named name previous c
  | array items each =>
    rw [run_array]
    exact tallied_row each 0 previous c
  | object entries each =>
    cases mixed : isBlock entries with
    | false =>
      rw [run_step pipeline mixed]
      refine tallied_callAll ?_ _ previous c
      intro stage kept
      obtain ⟨schema, found, rfl⟩ := Option.map_eq_some_iff.mp kept
      exact each (handlerKey, schema) (Entries.mem_of_get? found)
    | true =>
      rw [run_block pipeline mixed]
      cases formed : ConditionBlock.ofEntries entries with
      | error error => exact Run.tallied_fail _ c
      | ok block =>
        dsimp only
        cases selection : block.select c with
        | none => exact Run.tallied_done _ c
        | some schema =>
          obtain ⟨key, member⟩ := ConditionBlock.exists_mem_of_select formed selection
          exact each (key, schema) member previous c

end Pipeline

end Docscript

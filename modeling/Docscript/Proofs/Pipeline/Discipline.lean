import Docscript.Proofs.Pipeline.Course
import Docscript.Proofs.Pipeline.Warnings

set_option autoImplicit false

namespace Docscript

def Call.Succeeded (call : Call) : Prop := ∃ value, call.reply.result = .ok value

theorem Call.not_succeeded {call : Call} {failure : Failure}
    (answer : call.reply.result = .error failure) : ¬ call.Succeeded := by
  rintro ⟨value, success⟩
  rw [answer] at success
  cases success

namespace Pipeline

variable {pipeline : Pipeline} {moves : List Move} {fault : Option Error} {previous : Value}
  {c left : Context} {trail before after : List (Site × Call)} {site : Site} {call : Call}
  {ended : Except Error Flow}

/-- An end, as it is or with its result given up, which is how a handler passes it on. -/
def PassedOn (inner outer : Except Error Flow) : Prop :=
  outer = inner ∨ outer = inner.map fun _ => .aborted

theorem map_aborted_map (ended : Except Error Flow) :
    ((ended.map fun _ => Flow.aborted).map fun _ => Flow.aborted) =
      ended.map fun _ => .aborted := by
  cases ended <;> rfl

theorem PassedOn.map {inner outer : Except Error Flow} (passed : PassedOn inner outer) :
    PassedOn inner (outer.map fun _ => .aborted) := by
  obtain rfl | rfl := passed
  · exact .inr rfl
  · exact .inr (map_aborted_map inner)

theorem PassedOn.eq_of_map_eq {inner outer : Except Error Flow} (passed : PassedOn inner outer)
    (given : (inner.map fun _ => Flow.aborted) = inner) : outer = inner := by
  obtain rfl | rfl := passed
  · rfl
  · exact given

/-- From any of its calls on, a course is a course along the moves from there, however deep in
handlers these are. -/
theorem Course.from_call (course : Course pipeline moves fault previous c trail ended left)
    (split : trail = before ++ (site, call) :: after) :
    ∃ moves fault previous c inner,
      Course pipeline (.call site :: moves) fault previous c ((site, call) :: after) inner left ∧
        PassedOn inner ended := by
  induction course generalizing before with
  | finished => exact absurd split (by simp)
  | faulty => exact absurd split (by simp)
  | chosen _ _ ih => exact ih split
  | missing => exact absurd split (by simp)
  | succeeded made success rest ih =>
    cases before with
    | nil =>
      cases split
      exact ⟨_, _, _, _, _, .succeeded made success rest, .inl rfl⟩
    | cons _ before => exact ih (List.cons.inj split).2
  | aborted made request =>
    cases before with
    | nil =>
      cases split
      exact ⟨[], none, _, _, _, .aborted made request, .inl rfl⟩
    | cons _ before => exact absurd (List.cons.inj split).2 (by simp)
  | failed made failure unhandled =>
    cases before with
    | nil =>
      cases split
      exact ⟨[], none, _, _, _, .failed made failure unhandled, .inl rfl⟩
    | cons _ before => exact absurd (List.cons.inj split).2 (by simp)
  | handled made failure kept handling route course calls ih =>
    cases before with
    | nil =>
      cases split
      exact ⟨[], none, _, _, _, .handled made failure kept handling route course calls, .inl rfl⟩
    | cons _ before =>
      obtain ⟨moves, fault, previous, c, inner, rest, passed⟩ := ih (List.cons.inj split).2
      exact ⟨moves, fault, previous, c, inner, rest, passed.map⟩

theorem Course.of_call
    (course : Course pipeline (.call site :: moves) fault previous c ((site, call) :: after) ended
      left) :
    match call.reply.result with
    | .ok value => Course pipeline moves fault value call.reply.context after ended left
    | .error .abort => after = [] ∧ ended = .ok .aborted ∧ left = call.reply.context
    | .error (.failed message data) =>
      match site.handler with
      | none =>
        after = [] ∧ ended = .error (.operationFailed site.name message data) ∧
          left = call.reply.context
      | some handler =>
        let payload := (Failure.failed message data).payload
        let run := pipeline.run handler payload call.reply.context
        after.map (·.2) = run.calls ∧ ended = (run.result.map fun _ => .aborted) ∧
          left = run.context ∧ ∃ moves fault, Route handler moves fault ∧
            Course pipeline moves fault payload call.reply.context after run.result left := by
  cases course with
  | succeeded _ success rest =>
    rw [success]
    exact rest
  | aborted _ request =>
    rw [request]
    exact ⟨rfl, rfl, rfl⟩
  | failed _ failure unhandled =>
    rw [failure, unhandled]
    exact ⟨rfl, rfl, rfl⟩
  | handled _ failure kept handling route rest calls =>
    subst handling
    rw [failure, kept]
    exact ⟨calls.symm, rfl, rfl, _, _, route, rest⟩

theorem Course.of_abort (course : Course pipeline moves fault previous c trail ended left)
    (split : trail = before ++ (site, call) :: after)
    (request : call.reply.result = .error .abort) :
    after = [] ∧ ended = .ok .aborted ∧ left = call.reply.context := by
  obtain ⟨moves, fault, previous, c, inner, rest, passed⟩ := course.from_call split
  have answered := rest.of_call
  rw [request] at answered
  obtain ⟨last, rfl, stays⟩ := answered
  exact ⟨last, passed.eq_of_map_eq rfl, stays⟩

theorem Course.of_failure_unhandled
    (course : Course pipeline moves fault previous c trail ended left)
    (split : trail = before ++ (site, call) :: after) {message : String} {data : Value}
    (failure : call.reply.result = .error (.failed message data))
    (unhandled : site.handler = none) :
    after = [] ∧ ended = .error (.operationFailed site.name message data) ∧
      left = call.reply.context := by
  obtain ⟨moves, fault, previous, c, inner, rest, passed⟩ := course.from_call split
  have answered := rest.of_call
  rw [failure, unhandled] at answered
  obtain ⟨last, rfl, stays⟩ := answered
  exact ⟨last, passed.eq_of_map_eq rfl, stays⟩

/-- After a failure at a site with a handler, the rest is the course of that handler. -/
theorem Course.of_failure_handled
    (course : Course pipeline moves fault previous c trail ended left)
    (split : trail = before ++ (site, call) :: after) {message : String} {data handler : Value}
    (failure : call.reply.result = .error (.failed message data))
    (kept : site.handler = some handler) :
    let payload := (Failure.failed message data).payload
    let run := pipeline.run handler payload call.reply.context
    after.map (·.2) = run.calls ∧ ended = (run.result.map fun _ => .aborted) ∧
      left = run.context ∧ ∃ moves fault, Route handler moves fault ∧
        Course pipeline moves fault payload call.reply.context after run.result left := by
  obtain ⟨moves, fault, previous, c, inner, rest, passed⟩ := course.from_call split
  have answered := rest.of_call
  rw [failure, kept] at answered
  obtain ⟨calls, rfl, handling⟩ := answered
  exact ⟨calls, passed.eq_of_map_eq (map_aborted_map _), handling⟩

theorem Course.succeeded_of_proceed {value : Value}
    (course : Course pipeline moves fault previous c trail (.ok (.proceed value)) left)
    {entry : Site × Call} (member : entry ∈ trail) : entry.2.Succeeded := by
  obtain ⟨before, after, split⟩ := List.append_of_mem member
  cases answer : entry.2.reply.result with
  | ok result => exact ⟨result, answer⟩
  | error failure =>
    cases failure with
    | abort =>
      obtain ⟨_, ended, _⟩ := course.of_abort split answer
      cases ended
    | failed message data =>
      cases kept : entry.1.handler with
      | none =>
        obtain ⟨_, ended, _⟩ := course.of_failure_unhandled split answer kept
        cases ended
      | some handler =>
        obtain ⟨_, ended, _⟩ := course.of_failure_handled split answer kept
        exact absurd ended.symm (map_aborted_ne_proceed _ _)

/-- The sites in a row of moves. -/
def callSites (moves : List Move) : List Site :=
  moves.filterMap fun move =>
    match move with
    | .call site => some site
    | .choose _ _ => none

theorem callSites_call (site : Site) (moves : List Move) :
    callSites (.call site :: moves) = site :: callSites moves := rfl

theorem callSites_choose (block : ConditionBlock Value) (selected : Option Value)
    (moves : List Move) : callSites (.choose block selected :: moves) = callSites moves := rfl

/-- How a run ends on which every call made has succeeded, with the sites left to call: either
there is none left, and the run has a result unless the schema is at fault, or the operation of the
next one is missing. -/
inductive Unbroken (pipeline : Pipeline) :
    List Site → Option Error → Except Error Flow → Prop where
  | whole {value : Value} : Unbroken pipeline [] none (.ok (.proceed value))
  | faulty {error : Error} : Unbroken pipeline [] (some error) (.error error)
  | missing {site : Site} {rest : List Site} {fault : Option Error}
      (unknown : pipeline.registry.get? site.name = none) :
      Unbroken pipeline (site :: rest) fault (.error (.operationMissing site.name))

/-- While calls succeed, they are those of the schema itself and none of a handler. -/
theorem Course.unbroken (course : Course pipeline moves fault previous c trail ended left)
    (success : ∀ entry ∈ trail, entry.2.Succeeded) :
    ∃ rest, callSites moves = trail.map (·.1) ++ rest ∧ Unbroken pipeline rest fault ended := by
  induction course with
  | finished => exact ⟨[], rfl, .whole⟩
  | faulty => exact ⟨[], rfl, .faulty⟩
  | chosen _ _ ih =>
    rw [callSites_choose]
    exact ih success
  | missing unknown => exact ⟨_, rfl, .missing unknown⟩
  | succeeded _ _ _ ih =>
    obtain ⟨rest, sites, unbroken⟩ := ih (List.forall_mem_cons.mp success).2
    rw [callSites_call, sites]
    exact ⟨rest, rfl, unbroken⟩
  | aborted _ request =>
    exact absurd (success _ List.mem_cons_self) (Call.not_succeeded request)
  | failed _ failure =>
    exact absurd (success _ List.mem_cons_self) (Call.not_succeeded failure)
  | handled _ failure =>
    exact absurd (success _ List.mem_cons_self) (Call.not_succeeded failure)

/-- What a run is for those who do not compose it further. -/
def outcome : Flow → Option Value
  | .proceed value => some value
  | .aborted => none

theorem map_outcome_map_aborted (ended : Except Error Flow) :
    (ended.map fun _ => Flow.aborted).map outcome = ended.map fun _ => none := by
  cases ended <;> rfl

/-- Handling a schema adds nothing to its run but the report that it was aborted. -/
theorem handle_eq (pipeline : Pipeline) (schema previous : Value) (c : Context) :
    pipeline.handle schema previous c =
      let run := pipeline.run schema previous c
      { result := run.result.map outcome, context := run.context, calls := run.calls,
        events := run.events ++
          match run.result with
          | .ok .aborted => [.pipelineAborted]
          | _ => [] } := by
  rw [handle]
  obtain ⟨result, context, calls, events⟩ := pipeline.run schema previous c
  unfold Run.bind
  cases result with
  | error error => simp [Except.map]
  | ok flow => cases flow <;> simp [Except.map, outcome, Run.done]

theorem tallied_handle (pipeline : Pipeline) (schema previous : Value) (c : Context) :
    (pipeline.handle schema previous c).Tallied := by
  refine (tallied_run pipeline schema previous c).bind fun flow c => ?_
  cases flow with
  | proceed value => exact Run.tallied_done _ c
  | aborted => rfl

/-- What a pipeline keeps to that is run to its end, said of the calls on its way. -/
structure Disciplined (pipeline : Pipeline) (moves : List Move) (fault : Option Error)
    (trail : List (Site × Call)) (run : Run (Option Value)) : Prop where
  abort_ends : ∀ before site call after, trail = before ++ (site, call) :: after →
    call.reply.result = .error .abort →
    after = [] ∧ run.result = .ok none ∧ run.context = call.reply.context
  failure_handled : ∀ before site call after message data handler,
    trail = before ++ (site, call) :: after →
    call.reply.result = .error (.failed message data) → site.handler = some handler →
    let handling := pipeline.run handler
      (.object [("message", .string message), ("data", data)]) call.reply.context
    after.map (·.2) = handling.calls ∧ run.result = (handling.result.map fun _ => none) ∧
      run.context = handling.context
  failure_ends : ∀ before site call after message data,
    trail = before ++ (site, call) :: after →
    call.reply.result = .error (.failed message data) → site.handler = none →
    after = [] ∧ run.result = .error (.operationFailed site.name message data) ∧
      run.context = call.reply.context
  unbroken : (∀ entry ∈ trail, entry.2.Succeeded) →
    ∃ rest ended, callSites moves = trail.map (·.1) ++ rest ∧
      Unbroken pipeline rest fault ended ∧ run.result = ended.map outcome
  unbroken_handler : ∀ before site call after message data handler,
    trail = before ++ (site, call) :: after →
    call.reply.result = .error (.failed message data) → site.handler = some handler →
    (∀ entry ∈ after, entry.2.Succeeded) →
    ∃ moves fault rest ended, Route handler moves fault ∧
      callSites moves = after.map (·.1) ++ rest ∧ Unbroken pipeline rest fault ended ∧
      run.result = ended.map fun _ => none
  succeeded : ∀ value, run.result = .ok (some value) → ∀ entry ∈ trail, entry.2.Succeeded
  warned : warnings run.events =
    failures run.calls + warnings (run.calls.flatMap (·.reply.events))

theorem Course.disciplined {run : Run (Option Value)}
    (course : Course pipeline moves fault previous c trail ended left)
    (result : run.result = ended.map outcome) (context : run.context = left)
    (tallied : run.Tallied) : Disciplined pipeline moves fault trail run where
  abort_ends := by
    intro before site call after split request
    obtain ⟨last, rfl, rfl⟩ := course.of_abort split request
    exact ⟨last, result, context⟩
  failure_handled := by
    intro before site call after message data handler split failure kept
    obtain ⟨calls, rfl, stays, _⟩ := course.of_failure_handled split failure kept
    rw [map_outcome_map_aborted] at result
    exact ⟨calls, result, context.trans stays⟩
  failure_ends := by
    intro before site call after message data split failure unhandled
    obtain ⟨last, rfl, rfl⟩ := course.of_failure_unhandled split failure unhandled
    exact ⟨last, result, context⟩
  unbroken := by
    intro success
    obtain ⟨rest, sites, unbroken⟩ := course.unbroken success
    exact ⟨rest, ended, sites, unbroken, result⟩
  unbroken_handler := by
    intro before site call after message data handler split failure kept success
    obtain ⟨_, rfl, _, moves, fault, route, handling⟩ :=
      course.of_failure_handled split failure kept
    obtain ⟨rest, sites, unbroken⟩ := handling.unbroken success
    rw [map_outcome_map_aborted] at result
    exact ⟨moves, fault, rest, _, route, sites, unbroken, result⟩
  succeeded := by
    intro value complete entry member
    rw [result] at complete
    cases ended with
    | error error => cases complete
    | ok flow =>
      cases flow with
      | proceed value => exact course.succeeded_of_proceed member
      | aborted => cases complete
  warned := tallied

/-- Every pipeline that is run to its end is disciplined along the row of moves it goes. -/
theorem handle_disciplined (pipeline : Pipeline) (schema previous : Value) (c : Context) :
    ∃ moves fault trail, Route schema moves fault ∧
      Course pipeline moves fault previous c trail (pipeline.run schema previous c).result
        (pipeline.run schema previous c).context ∧
      (pipeline.handle schema previous c).calls = trail.map (·.2) ∧
      Disciplined pipeline moves fault trail (pipeline.handle schema previous c) := by
  obtain ⟨moves, fault, route, trail, course, calls⟩ := charted pipeline schema previous c
  have tallied := tallied_handle pipeline schema previous c
  rw [handle_eq] at tallied ⊢
  exact ⟨moves, fault, trail, route, course, calls, course.disciplined rfl rfl tallied⟩

end Pipeline

end Docscript

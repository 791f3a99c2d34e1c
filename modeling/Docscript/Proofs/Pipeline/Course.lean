import Docscript.Proofs.Pipeline.Stage

/- A schema, however its parts are nested, leads through a flat row of moves: calls and choices of
branches. A run makes these moves one after the other until a call does not succeed, an operation is
missing or the schema itself is at fault. -/

set_option autoImplicit false

namespace Docscript.Pipeline

/-- A place in a schema where an operation is called, with the handler that the step around it keeps
for failures. -/
structure Site where
  name : String
  args : Value
  handler : Option Value

/-- The sites of a step that is no block. -/
def sites (entries : List (String × Value)) : List Site :=
  (entries.filter (·.1 != handlerKey)).map fun entry =>
    ⟨entry.1, entry.2, Entries.get? entries handlerKey⟩

/-- A choice is given with the branch that is selected in it, if any. -/
inductive Move where
  | call (site : Site)
  | choose (block : ConditionBlock Value) (selected : Option Value)

mutual

/-- The rows of moves that a schema leads through, and the fault of the schema at their end. -/
inductive Route : Value → List Move → Option Error → Prop where
  | named {name : String} : Route (.string name) [.call ⟨name, .object [], none⟩] none
  | step {entries : List (String × Value)} (plain : isBlock entries = false) :
      Route (.object entries) ((sites entries).map .call) none
  | branch {entries : List (String × Value)} {block : ConditionBlock Value} {schema : Value}
      {moves : List Move} {fault : Option Error} (mixed : isBlock entries = true)
      (formed : ConditionBlock.ofEntries entries = .ok block) (inner : Route schema moves fault) :
      Route (.object entries) (.choose block (some schema) :: moves) fault
  | unselected {entries : List (String × Value)} {block : ConditionBlock Value}
      (mixed : isBlock entries = true) (formed : ConditionBlock.ofEntries entries = .ok block) :
      Route (.object entries) [.choose block none] none
  | malformed {entries : List (String × Value)} {error : Error} (mixed : isBlock entries = true)
      (formed : ConditionBlock.ofEntries entries = .error error) :
      Route (.object entries) [] (some error)
  | row {items : List Value} {moves : List Move} {fault : Option Error}
      (inner : RowRoute 0 items moves fault) : Route (.array items) moves fault
  | null : Route .null [] (some (.schema (.shape .null)))
  | bool {b : Bool} : Route (.bool b) [] (some (.schema (.shape (.bool b))))
  | number {n : Number} : Route (.number n) [] (some (.schema (.shape (.number n))))

/-- The same for the rest of a row of steps from a position on. -/
inductive RowRoute : Nat → List Value → List Move → Option Error → Prop where
  | done {position : Nat} : RowRoute position [] [] none
  | next {position : Nat} {item : Value} {rest : List Value} {moves others : List Move}
      {fault : Option Error} (fits : isStep item = true) (first : Route item moves none)
      (later : RowRoute (position + 1) rest others fault) :
      RowRoute position (item :: rest) (moves ++ others) fault
  | cut {position : Nat} {item : Value} {rest : List Value} {moves : List Move} {error : Error}
      (fits : isStep item = true) (first : Route item moves (some error)) :
      RowRoute position (item :: rest) moves (some error)
  | misplaced {position : Nat} {item : Value} {rest : List Value} (fits : isStep item = false) :
      RowRoute position (item :: rest) [] (some (.schema (.step position item)))

end

/-- What it is for a call to be made at a site. -/
structure Made (pipeline : Pipeline) (site : Site) (previous : Value) (c : Context) (call : Call) :
    Prop where
  named : call.operation = site.name
  compiled : call.args = Template.compile pipeline.options c site.args
  entered : call.context = c
  given : call.previous = previous
  answered : ∃ operation, pipeline.registry.get? site.name = some operation ∧
    call.reply = operation call.args c previous

/-- How a run goes along a row of moves, from the previous result in a context, with the calls on
its way at their sites, to an end and the context it leaves behind. -/
inductive Course (pipeline : Pipeline) :
    List Move → Option Error → Value → Context → List (Site × Call) → Except Error Flow →
      Context → Prop where
  | finished {previous : Value} {c : Context} :
      Course pipeline [] none previous c [] (.ok (.proceed previous)) c
  | faulty {error : Error} {previous : Value} {c : Context} :
      Course pipeline [] (some error) previous c [] (.error error) c
  | chosen {block : ConditionBlock Value} {selected : Option Value} {moves : List Move}
      {fault : Option Error} {previous : Value} {c left : Context} {trail : List (Site × Call)}
      {ended : Except Error Flow} (selection : block.select c = selected)
      (rest : Course pipeline moves fault previous c trail ended left) :
      Course pipeline (.choose block selected :: moves) fault previous c trail ended left
  | missing {site : Site} {moves : List Move} {fault : Option Error} {previous : Value}
      {c : Context} (unknown : pipeline.registry.get? site.name = none) :
      Course pipeline (.call site :: moves) fault previous c []
        (.error (.operationMissing site.name)) c
  | succeeded {site : Site} {moves : List Move} {fault : Option Error} {previous value : Value}
      {c left : Context} {call : Call} {trail : List (Site × Call)} {ended : Except Error Flow}
      (made : Made pipeline site previous c call) (success : call.reply.result = .ok value)
      (rest : Course pipeline moves fault value call.reply.context trail ended left) :
      Course pipeline (.call site :: moves) fault previous c ((site, call) :: trail) ended left
  | aborted {site : Site} {moves : List Move} {fault : Option Error} {previous : Value}
      {c : Context} {call : Call} (made : Made pipeline site previous c call)
      (request : call.reply.result = .error .abort) :
      Course pipeline (.call site :: moves) fault previous c [(site, call)] (.ok .aborted)
        call.reply.context
  | failed {site : Site} {moves : List Move} {fault : Option Error} {previous data : Value}
      {c : Context} {call : Call} {message : String} (made : Made pipeline site previous c call)
      (failure : call.reply.result = .error (.failed message data))
      (unhandled : site.handler = none) :
      Course pipeline (.call site :: moves) fault previous c [(site, call)]
        (.error (.operationFailed site.name message data)) call.reply.context
  | handled {site : Site} {moves inner : List Move} {fault other : Option Error}
      {previous data handler : Value} {c : Context} {call : Call} {message : String}
      {trail : List (Site × Call)} {run : Run Flow} (made : Made pipeline site previous c call)
      (failure : call.reply.result = .error (.failed message data))
      (kept : site.handler = some handler)
      (handling : run =
        pipeline.run handler (Failure.failed message data).payload call.reply.context)
      (route : Route handler inner other)
      (course : Course pipeline inner other (Failure.failed message data).payload
        call.reply.context trail run.result run.context)
      (calls : run.calls = trail.map (·.2)) :
      Course pipeline (.call site :: moves) fault previous c ((site, call) :: trail)
        (run.result.map fun _ => .aborted) run.context

variable {pipeline : Pipeline} {moves others : List Move} {fault : Option Error}
  {previous value : Value} {c middle left : Context} {trail further : List (Site × Call)}
  {ended : Except Error Flow}

theorem map_aborted_ne_proceed (ended : Except Error Flow) (value : Value) :
    (ended.map fun _ => Flow.aborted) ≠ .ok (.proceed value) := by
  cases ended with
  | error error => intro same; cases same
  | ok flow => intro same; cases same

theorem Course.fault_eq_none
    (course : Course pipeline moves fault previous c trail (.ok (.proceed value)) left) :
    fault = none := by
  generalize result : Except.ok (Flow.proceed value) = ended at course
  induction course with
  | finished => rfl
  | faulty => cases result
  | chosen _ _ ih => exact ih result
  | missing => cases result
  | succeeded _ _ _ ih => exact ih result
  | aborted => cases result
  | failed => cases result
  | handled => exact absurd result.symm (map_aborted_ne_proceed _ _)

/-- Courses are put together where the first one has a result. -/
theorem Course.append
    (first : Course pipeline moves none previous c trail (.ok (.proceed value)) middle)
    (second : Course pipeline others fault value middle further ended left) :
    Course pipeline (moves ++ others) fault previous c (trail ++ further) ended left := by
  generalize clear : none = before at first
  generalize result : Except.ok (Flow.proceed value) = outcome at first
  induction first with
  | finished => cases result; exact second
  | faulty => cases clear
  | chosen selection _ ih => exact .chosen selection (ih second clear result)
  | missing => cases result
  | succeeded made success _ ih => exact .succeeded made success (ih second clear result)
  | aborted => cases result
  | failed => cases result
  | handled => exact absurd result.symm (map_aborted_ne_proceed _ _)

/-- A course that stops before the end of its moves is not touched by what would come then. -/
theorem Course.extend (stopped : Course pipeline moves none previous c trail ended left)
    (early : ∀ value, ended ≠ .ok (.proceed value)) (others : List Move) (fault : Option Error) :
    Course pipeline (moves ++ others) fault previous c trail ended left := by
  generalize clear : none = before at stopped
  induction stopped with
  | @finished previous => exact absurd rfl (early previous)
  | faulty => cases clear
  | chosen selection _ ih => exact .chosen selection (ih early clear)
  | missing unknown => exact .missing unknown
  | succeeded made success _ ih => exact .succeeded made success (ih early clear)
  | aborted made request => exact .aborted made request
  | failed made failure unhandled => exact .failed made failure unhandled
  | handled made failure kept handling route course calls =>
    exact .handled made failure kept handling route course calls

theorem exists_rowRoute (items : List Value)
    (each : ∀ item ∈ items, ∃ moves fault, Route item moves fault) (position : Nat) :
    ∃ moves fault, RowRoute position items moves fault := by
  induction items generalizing position with
  | nil => exact ⟨[], none, .done⟩
  | cons item rest ih =>
    rw [List.forall_mem_cons] at each
    cases fits : isStep item with
    | false => exact ⟨[], _, .misplaced fits⟩
    | true =>
      obtain ⟨moves, fault, first⟩ := each.1
      cases fault with
      | some error => exact ⟨moves, _, .cut fits first⟩
      | none =>
        obtain ⟨others, fault, later⟩ := ih each.2 (position + 1)
        exact ⟨moves ++ others, fault, .next fits first later⟩

theorem exists_route (schema : Value) : ∃ moves fault, Route schema moves fault := by
  induction schema using Value.induction_parts with
  | null => exact ⟨[], _, .null⟩
  | bool b => exact ⟨[], _, .bool⟩
  | number n => exact ⟨[], _, .number⟩
  | string name => exact ⟨_, none, .named⟩
  | array items each =>
    obtain ⟨moves, fault, inner⟩ := exists_rowRoute items each 0
    exact ⟨moves, fault, .row inner⟩
  | object entries _ =>
    cases mixed : isBlock entries with
    | false => exact ⟨_, none, .step mixed⟩
    | true =>
      cases formed : ConditionBlock.ofEntries entries with
      | error error => exact ⟨[], some error, .malformed mixed formed⟩
      | ok block => exact ⟨_, none, .unselected mixed formed⟩

/-- A run goes along a row of moves. -/
def Follows (pipeline : Pipeline) (moves : List Move) (fault : Option Error) (previous : Value)
    (c : Context) (run : Run Flow) : Prop :=
  ∃ trail, Course pipeline moves fault previous c trail run.result run.context ∧
    run.calls = trail.map (·.2)

/-- Runs of a schema go along the rows of moves that it leads through. -/
def Charted (pipeline : Pipeline) (schema : Value) : Prop :=
  ∀ previous c, ∃ moves fault, Route schema moves fault ∧
    Follows pipeline moves fault previous c (pipeline.run schema previous c)

theorem made_callOf {operation : Operation} (site : Site)
    (registered : pipeline.registry.get? site.name = some operation) (previous : Value)
    (c : Context) :
    Made pipeline site previous c (pipeline.callOf operation site.name site.args previous c) :=
  ⟨rfl, rfl, rfl, rfl, operation, registered, rfl⟩

theorem named_follows (pipeline : Pipeline) (name : String) (previous : Value) (c : Context) :
    Follows pipeline [.call ⟨name, .object [], none⟩] none previous c
      (pipeline.named name previous c) := by
  cases registered : pipeline.registry.get? name with
  | none =>
    rw [named_of_none pipeline registered]
    exact ⟨[], .missing registered, rfl⟩
  | some operation =>
    have made := made_callOf ⟨name, .object [], none⟩ registered previous c
    rw [named_of_some pipeline registered]
    dsimp only at made ⊢
    generalize pipeline.callOf operation name (.object []) previous c = call at made ⊢
    cases answer : call.reply.result with
    | ok value => exact ⟨[(_, call)], .succeeded made answer .finished, rfl⟩
    | error failure =>
      cases failure with
      | abort => exact ⟨[(_, call)], .aborted made answer, rfl⟩
      | failed message data => exact ⟨[(_, call)], .failed made answer rfl, rfl⟩

/-- The calls of a step go along its sites, and along its handler after a failure. -/
theorem callAll_follows (handler : Option Value)
    (charted : ∀ schema, handler = some schema → Charted pipeline schema)
    (entries : List (String × Value)) (previous : Value) (c : Context) :
    Follows pipeline (entries.map fun entry => .call ⟨entry.1, entry.2, handler⟩) none previous c
      (pipeline.callAll (handler.map pipeline.run) (entries.map pipeline.entryOf) previous c) := by
  induction entries generalizing previous c with
  | nil => exact ⟨[], .finished, rfl⟩
  | cons entry rest ih =>
    obtain ⟨name, args⟩ := entry
    rw [List.map_cons, List.map_cons]
    cases registered : pipeline.registry.get? name with
    | none =>
      rw [callAll_of_none pipeline registered]
      exact ⟨[], .missing registered, rfl⟩
    | some operation =>
      have made := made_callOf ⟨name, args, handler⟩ registered previous c
      rw [callAll_of_some pipeline registered]
      dsimp only at made ⊢
      generalize pipeline.callOf operation name args previous c = call at made ⊢
      cases answer : call.reply.result with
      | ok value =>
        obtain ⟨trail, course, calls⟩ := ih value call.reply.context
        exact ⟨_, .succeeded made answer course, congrArg (call :: ·) calls⟩
      | error failure =>
        cases failure with
        | abort => exact ⟨[(_, call)], .aborted made answer, rfl⟩
        | failed message data =>
          cases handler with
          | none => exact ⟨[(_, call)], .failed made answer rfl, rfl⟩
          | some schema =>
            obtain ⟨inner, fault, route, trail, course, calls⟩ :=
              charted schema rfl (Failure.failed message data).payload call.reply.context
            refine ⟨(⟨name, args, some schema⟩, call) :: trail, ?_, ?_⟩
            · simp only [Option.map_some, Run.bind_done]
              exact .handled made answer rfl rfl route course calls
            · simp only [Option.map_some, Run.bind_done]
              exact congrArg (call :: ·) calls

/-- A row ends where a course along its first step stops early. -/
theorem exists_rowRoute_of_stopped {item : Value} (fits : isStep item = true)
    (route : Route item moves fault)
    (stopped : Course pipeline moves fault previous c trail ended left)
    (early : ∀ value, ended ≠ .ok (.proceed value)) (rest : List Value) (position : Nat) :
    ∃ moves fault, RowRoute position (item :: rest) moves fault ∧
      Course pipeline moves fault previous c trail ended left := by
  cases fault with
  | some error => exact ⟨moves, some error, .cut fits route, stopped⟩
  | none =>
    obtain ⟨others, fault, later⟩ :=
      exists_rowRoute rest (fun item _ => exists_route item) (position + 1)
    exact ⟨moves ++ others, fault, .next fits route later, stopped.extend early others fault⟩

theorem row_follows {items : List Value} (charted : ∀ item ∈ items, Charted pipeline item)
    (position : Nat) (previous : Value) (c : Context) :
    ∃ moves fault, RowRoute position items moves fault ∧
      Follows pipeline moves fault previous c
        (row position (items.map fun item => ⟨item, pipeline.run item⟩) previous c) := by
  induction items generalizing position previous c with
  | nil => exact ⟨[], none, .done, [], .finished, rfl⟩
  | cons item rest ih =>
    rw [List.forall_mem_cons] at charted
    rw [List.map_cons, row]
    dsimp only
    cases fits : isStep item with
    | false => exact ⟨[], _, .misplaced fits, [], .faulty, rfl⟩
    | true =>
      rw [if_pos rfl]
      obtain ⟨moves, fault, route, trail, course, calls⟩ := charted.1 previous c
      generalize pipeline.run item previous c = first at course calls ⊢
      cases ended : first.result with
      | error error =>
        rw [ended] at course
        obtain ⟨moves, fault, whole, stopped⟩ := exists_rowRoute_of_stopped fits route course
          (fun _ same => by cases same) rest position
        rw [Run.bind_of_error ended]
        exact ⟨moves, fault, whole, trail, stopped, calls⟩
      | ok flow =>
        rw [ended] at course
        cases flow with
        | aborted =>
          obtain ⟨moves, fault, whole, stopped⟩ := exists_rowRoute_of_stopped fits route course
            (fun _ same => by cases same) rest position
          refine ⟨moves, fault, whole, trail, ?_, ?_⟩
          · rw [Run.result_bind_of_ok ended, Run.context_bind_of_ok ended]
            exact stopped
          · rw [Run.calls_bind_of_ok ended, calls]
            exact List.append_nil _
        | proceed value =>
          obtain rfl := course.fault_eq_none
          obtain ⟨others, fault, later, further, second, next⟩ :=
            ih charted.2 (position + 1) value first.context
          refine ⟨_, fault, .next fits route later, trail ++ further, ?_, ?_⟩
          · rw [Run.result_bind_of_ok ended, Run.context_bind_of_ok ended]
            exact course.append second
          · rw [Run.calls_bind_of_ok ended, calls, List.map_append]
            exact congrArg _ next

/-- The run of a schema goes along a row of moves that the schema leads through. -/
theorem charted (pipeline : Pipeline) (schema : Value) : Charted pipeline schema := by
  induction schema using Value.induction_parts with
  | null => exact fun previous c => ⟨[], _, .null, [], .faulty, rfl⟩
  | bool b => exact fun previous c => ⟨[], _, .bool, [], .faulty, rfl⟩
  | number n => exact fun previous c => ⟨[], _, .number, [], .faulty, rfl⟩
  | string name =>
    intro previous c
    rw [run_string]
    exact ⟨_, none, .named, named_follows pipeline name previous c⟩
  | array items each =>
    intro previous c
    obtain ⟨moves, fault, inner, follows⟩ := row_follows each 0 previous c
    rw [run_array]
    exact ⟨moves, fault, .row inner, follows⟩
  | object entries each =>
    intro previous c
    cases mixed : isBlock entries with
    | false =>
      rw [run_step pipeline mixed]
      have follows := callAll_follows (Entries.get? entries handlerKey)
        (fun schema kept => each (handlerKey, schema) (Entries.mem_of_get? kept))
        (entries.filter (·.1 != handlerKey)) previous c
      refine ⟨_, none, .step mixed, ?_⟩
      rw [sites, List.map_map]
      exact follows
    | true =>
      rw [run_block pipeline mixed]
      cases formed : ConditionBlock.ofEntries entries with
      | error error => exact ⟨[], some error, .malformed mixed formed, [], .faulty, rfl⟩
      | ok block =>
        dsimp only
        cases selection : block.select c with
        | none =>
          exact ⟨_, none, .unselected mixed formed, [], .chosen selection .finished, rfl⟩
        | some schema =>
          obtain ⟨key, member⟩ := ConditionBlock.exists_mem_of_select formed selection
          obtain ⟨moves, fault, inner, trail, course, calls⟩ := each (key, schema) member previous c
          exact ⟨_, fault, .branch mixed formed inner, trail, .chosen selection course, calls⟩

end Docscript.Pipeline

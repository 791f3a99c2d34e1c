import Docscript.Proofs.Pipeline.Stage

set_option autoImplicit false

namespace Docscript

namespace Run

variable {α β γ : Type}

theorem bind_assoc (run : Run α) (next : α → Context → Run β) (last : β → Context → Run γ) :
    (run.bind next).bind last = run.bind fun value c => (next value c).bind last := by
  obtain ⟨result, left, calls, events⟩ := run
  cases result with
  | error error => rfl
  | ok value =>
    simp only [bind]
    cases (next value left).result <;> simp

theorem after_bind (event : Event) (run : Run α) (next : α → Context → Run β) :
    (run.after event).bind next = (run.bind next).after event := by
  obtain ⟨result, left, calls, events⟩ := run
  cases result <;> rfl

/-- Goes on with a stage after a run that proceeds. An abort stays one. -/
def andThen (run : Run Flow) (next : Stage) : Run Flow :=
  run.bind fun flow c =>
    match flow with
    | .proceed value => next value c
    | .aborted => .done .aborted c

variable {run : Run Flow}

theorem andThen_assoc (run : Run Flow) (next last : Stage) :
    (run.andThen next).andThen last = run.andThen fun value c => (next value c).andThen last := by
  rw [andThen, andThen, bind_assoc, andThen]
  congr 1
  funext flow c
  cases flow <;> rfl

theorem andThen_of_proceed {value : Value} (proceeds : run.result = .ok (.proceed value))
    (next : Stage) :
    run.andThen next =
      { result := (next value run.context).result, context := (next value run.context).context,
        calls := run.calls ++ (next value run.context).calls,
        events := run.events ++ (next value run.context).events } := by
  simp only [andThen, bind, proceeds]

theorem andThen_of_not_proceed (stopped : ∀ value, run.result ≠ .ok (.proceed value))
    (next : Stage) : run.andThen next = run := by
  obtain ⟨result, left, calls, events⟩ := run
  cases result with
  | error error => rfl
  | ok flow =>
    cases flow with
    | proceed value => exact absurd rfl (stopped value)
    | aborted => simp [andThen, bind, done]

theorem andThen_proceed (run : Run Flow) :
    (run.andThen fun value => done (.proceed value)) = run := by
  cases ended : run.result with
  | error error => exact andThen_of_not_proceed (by simp [ended]) _
  | ok flow =>
    cases flow with
    | aborted => exact andThen_of_not_proceed (by simp [ended]) _
    | proceed value => simp [andThen_of_proceed ended, done, ← ended]

end Run

namespace Pipeline

theorem row_cons_of_isStep {item : RowItem} (fits : isStep item.schema = true) (position : Nat)
    (rest : List RowItem) (previous : Value) (c : Context) :
    row position (item :: rest) previous c =
      (item.stage previous c).andThen (row (position + 1) rest) := by
  rw [row]
  exact if_pos fits

theorem row_cons_of_not_isStep {item : RowItem} (fits : isStep item.schema = false)
    (position : Nat) (rest : List RowItem) (previous : Value) (c : Context) :
    row position (item :: rest) previous c =
      .fail (.schema (.step position item.schema)) c := by
  rw [row]
  exact if_neg (by simp [fits])

theorem row_append (items others : List RowItem) (position : Nat) (previous : Value)
    (c : Context) :
    row position (items ++ others) previous c =
      (row position items previous c).andThen (row (position + items.length) others) := by
  induction items generalizing position previous c with
  | nil => rfl
  | cons item rest ih =>
    rw [List.cons_append]
    cases fits : isStep item.schema with
    | false =>
      rw [row_cons_of_not_isStep fits, row_cons_of_not_isStep fits]
      rfl
    | true =>
      rw [row_cons_of_isStep fits, row_cons_of_isStep fits, Run.andThen_assoc]
      congr 1
      funext value left
      rw [ih, List.length_cons, Nat.add_right_comm, Nat.add_assoc]

/-- Two ends of a row of steps whose first element has one position or another: the same end, but
for the position that is quoted of an element that is no step. -/
def SameEnd (position other : Nat) (items : List Value) (first second : Except Error Flow) : Prop :=
  second = first ∨ ∃ index item, items[index]? = some item ∧ isStep item = false ∧
    first = .error (.schema (.step (position + index) item)) ∧
      second = .error (.schema (.step (other + index) item))

theorem SameEnd.cons {position other : Nat} {items : List Value} {first second : Except Error Flow}
    (later : SameEnd (position + 1) (other + 1) items first second) (item : Value) :
    SameEnd position other (item :: items) first second := by
  obtain same | ⟨index, found, among, unfit, one, two⟩ := later
  · exact .inl same
  · rw [Nat.add_right_comm, Nat.add_assoc] at one two
    exact .inr ⟨index + 1, found, among, unfit, one, two⟩

/-- Two runs that differ in the position quoted at their ends alone. -/
structure SameButPosition (position other : Nat) (items : List Value) (first second : Run Flow) :
    Prop where
  ended : SameEnd position other items first.result second.result
  context : second.context = first.context
  calls : second.calls = first.calls
  events : second.events = first.events

theorem sameButPosition_refl (position other : Nat) (items : List Value) (run : Run Flow) :
    SameButPosition position other items run run :=
  ⟨.inl rfl, rfl, rfl, rfl⟩

/-- The positions of its elements matter to a row of steps in its error alone. -/
theorem sameButPosition_row (pipeline : Pipeline) (items : List Value) (position other : Nat)
    (previous : Value) (c : Context) :
    SameButPosition position other items
      (row position (items.map fun item => ⟨item, pipeline.run item⟩) previous c)
      (row other (items.map fun item => ⟨item, pipeline.run item⟩) previous c) := by
  induction items generalizing position other previous c with
  | nil => exact sameButPosition_refl position other [] _
  | cons item rest ih =>
    rw [List.map_cons]
    cases fits : isStep item with
    | false =>
      rw [row_cons_of_not_isStep fits, row_cons_of_not_isStep fits]
      exact ⟨.inr ⟨0, item, rfl, fits, rfl, rfl⟩, rfl, rfl, rfl⟩
    | true =>
      rw [row_cons_of_isStep fits, row_cons_of_isStep fits]
      dsimp only
      generalize pipeline.run item previous c = first
      by_cases proceeds : ∃ value, first.result = .ok (.proceed value)
      · obtain ⟨value, proceeds⟩ := proceeds
        have later := ih (position + 1) (other + 1) value first.context
        rw [Run.andThen_of_proceed proceeds, Run.andThen_of_proceed proceeds]
        exact ⟨later.ended.cons item, later.context, congrArg (first.calls ++ ·) later.calls,
          congrArg (first.events ++ ·) later.events⟩
      · have stopped := not_exists.mp proceeds
        rw [Run.andThen_of_not_proceed stopped, Run.andThen_of_not_proceed stopped]
        exact sameButPosition_refl position other (item :: rest) first

theorem run_singleton (pipeline : Pipeline) {item : Value} (fits : isStep item = true)
    (previous : Value) (c : Context) :
    pipeline.run (.array [item]) previous c = pipeline.run item previous c := by
  rw [run_array, List.map_singleton, row_cons_of_isStep fits]
  exact Run.andThen_proceed _

/-- Rows of steps compose. Where the first of two rows proceeds, the whole makes its calls and then
those of the second row, run from its result in the context it leaves, and ends like that run; but a
misplaced element is quoted with its position in the whole. Where the first row does not proceed, it
is the whole run. A single step in a row runs like the step itself. -/
theorem rows_compose (pipeline : Pipeline) (xs ys : List Value) (previous : Value) (c : Context) :
    let first := pipeline.run (.array xs) previous c
    let whole := pipeline.run (.array (xs ++ ys)) previous c
    (∀ value, first.result = .ok (.proceed value) →
      let second := pipeline.run (.array ys) value first.context
      whole.calls = first.calls ++ second.calls ∧ whole.context = second.context ∧
        whole.events = first.events ++ second.events ∧
        SameEnd 0 xs.length ys second.result whole.result) ∧
    ((∀ value, first.result ≠ .ok (.proceed value)) → whole = first) ∧
    ∀ item, isStep item = true →
      pipeline.run (.array [item]) previous c = pipeline.run item previous c := by
  intro first whole
  have joined : whole =
      first.andThen (row xs.length (ys.map fun item => ⟨item, pipeline.run item⟩)) := by
    simp only [whole, first, run_array, List.map_append, row_append, List.length_map, Nat.zero_add]
  refine ⟨fun value proceeds => ?_, fun stopped => ?_, fun item fits =>
    run_singleton pipeline fits previous c⟩
  · intro second
    have moved := sameButPosition_row pipeline ys 0 xs.length value first.context
    rw [← run_array] at moved
    rw [joined, Run.andThen_of_proceed proceeds]
    exact ⟨congrArg (first.calls ++ ·) moved.calls, moved.context,
      congrArg (first.events ++ ·) moved.events, moved.ended⟩
  · rw [joined, Run.andThen_of_not_proceed stopped]

/-- A row that proceeds before one with a misplaced element, a row that is aborted, and a step that
is a name. -/
theorem rows_compose_before_misplaced :
    let keep : Operation := fun args c previous => ⟨.ok args, c.insert "kept" previous, []⟩
    let halt : Operation := fun _ c _ => ⟨.error .abort, c, []⟩
    let pipeline : Pipeline := ⟨⟨[("keep", ⟨"host", keep⟩), ("halt", ⟨"host", halt⟩)]⟩, {}⟩
    let xs : List Value := [.object [("keep", .int 1)]]
    let ys : List Value := [.object [("keep", .int 2)], .null]
    let first := pipeline.run (.array xs) (.int 7) .empty
    let second := pipeline.run (.array ys) (.int 1) first.context
    let whole := pipeline.run (.array (xs ++ ys)) (.int 7) .empty
    let halted := pipeline.run (.array [.string "halt"]) (.int 7) .empty
    first.result = .ok (.proceed (.int 1)) ∧
      (whole.calls = first.calls ++ second.calls ∧ whole.context = second.context ∧
        whole.events = first.events ++ second.events ∧
        SameEnd 0 1 ys second.result whole.result) ∧
      second.result = .error (.schema (.step 1 .null)) ∧
      whole.result = .error (.schema (.step 2 .null)) ∧
      halted.result = .ok .aborted ∧
      pipeline.run (.array ([.string "halt"] ++ ys)) (.int 7) .empty = halted ∧
      isStep (.string "keep") = true ∧
      pipeline.run (.array [.string "keep"]) (.int 7) .empty =
        pipeline.run (.string "keep") (.int 7) .empty :=
  have aborted (value : Value) : (Except.ok .aborted : Except Error Flow) ≠ .ok (.proceed value) :=
    fun same => nomatch same
  ⟨rfl, (rows_compose _ _ _ _ _).1 _ rfl, rfl, rfl, rfl, (rows_compose _ _ _ _ _).2.1 aborted, rfl,
    (rows_compose _ [] [] _ _).2.2 _ rfl⟩

end Pipeline

end Docscript

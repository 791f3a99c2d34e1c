import Docscript.Proofs.Pipeline.Course

set_option autoImplicit false

namespace Docscript.Pipeline

/-- Calls in a chain: all succeed, each is made at the next site of the row of moves with the result
and the context of the call before it, and choices are made in the context of that moment. -/
inductive Chain (pipeline : Pipeline) :
    List Move → Value → Context → List Call → Value → Context → Prop where
  | done {previous : Value} {c : Context} : Chain pipeline [] previous c [] previous c
  | chosen {block : ConditionBlock Value} {selected : Option Value} {moves : List Move}
      {previous value : Value} {c left : Context} {calls : List Call}
      (selection : block.select c = selected)
      (rest : Chain pipeline moves previous c calls value left) :
      Chain pipeline (.choose block selected :: moves) previous c calls value left
  | called {site : Site} {moves : List Move} {previous result value : Value} {c left : Context}
      {call : Call} {calls : List Call} (made : Made pipeline site previous c call)
      (success : call.reply.result = .ok result)
      (rest : Chain pipeline moves result call.reply.context calls value left) :
      Chain pipeline (.call site :: moves) previous c (call :: calls) value left

theorem Course.chain {pipeline : Pipeline} {moves : List Move} {fault : Option Error}
    {previous value : Value} {c left : Context} {trail : List (Site × Call)}
    (course : Course pipeline moves fault previous c trail (.ok (.proceed value)) left) :
    Chain pipeline moves previous c (trail.map (·.2)) value left := by
  generalize result : Except.ok (Flow.proceed value) = ended at course
  induction course with
  | finished => cases result; exact .done
  | faulty => cases result
  | chosen selection _ ih => exact .chosen selection (ih result)
  | missing => cases result
  | succeeded made success _ ih => exact .called made success (ih result)
  | aborted => cases result
  | failed => cases result
  | handled => exact absurd result.symm (map_aborted_ne_proceed _ _)

/-- A run that proceeds has gone through a whole row of moves of its schema, and its calls form a
chain along it. -/
theorem run_chain (pipeline : Pipeline) (schema previous value : Value) (c : Context)
    (proceeds : (pipeline.run schema previous c).result = .ok (.proceed value)) :
    ∃ moves, Route schema moves none ∧
      Chain pipeline moves previous c (pipeline.run schema previous c).calls value
        (pipeline.run schema previous c).context := by
  obtain ⟨moves, fault, route, trail, course, calls⟩ := charted pipeline schema previous c
  rw [proceeds] at course
  obtain rfl := course.fault_eq_none
  rw [calls]
  exact ⟨moves, route, course.chain⟩

/-- A step with a handler that is not used, and a block with the other calls in its branch. -/
theorem run_chain_through_block :
    let keep : Operation := fun args c previous => ⟨.ok args, c.insert "kept" previous, []⟩
    let pipeline : Pipeline := ⟨⟨[("keep", ⟨"host", keep⟩)]⟩, {}⟩
    let schema : Value := .array
      [.object [("keep", .int 1), ("on_error", .null)],
       .object [("if 'yes'", .object [("keep", .int 2), ("Keep", .int 3)]), ("else", .null)]]
    (pipeline.run schema (.int 7) .empty).result = .ok (.proceed (.int 3)) ∧
      ∃ moves, Route schema moves none ∧
        Chain pipeline moves (.int 7) .empty (pipeline.run schema (.int 7) .empty).calls (.int 3)
          (pipeline.run schema (.int 7) .empty).context :=
  ⟨rfl, run_chain _ _ _ _ _ rfl⟩

end Docscript.Pipeline

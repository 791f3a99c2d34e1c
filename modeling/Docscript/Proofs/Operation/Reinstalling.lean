import Docscript.Proofs.Operation.Lookup

set_option autoImplicit false

namespace Docscript

namespace Registry

open OperationName (canonical canonical_append)

variable {registry later : Registry} {source : String}

/-- A registration that is made again changes nothing, and fails as it did before. -/
theorem registerIn_again {name : String} {operation : Operation}
    (keeps : later.Keeps (registry.registerIn source name operation).registry) :
    (later.registerIn source name operation).registry = later ∧
      (later.registerIn source name operation).result =
        (registry.registerIn source name operation).result.map fun _ => false := by
  cases taken : registry.entries.get? (canonical name) with
  | none =>
    have own : later.entries.get? (canonical name) = some ⟨source, operation⟩ := by
      apply keeps
      rw [get?_registerIn, taken, if_pos rfl, Option.none_or]
    rw [registerIn_of_same own rfl, registerIn_of_free taken]
    exact ⟨rfl, rfl⟩
  | some held =>
    have still : later.entries.get? (canonical name) = some held :=
      keeps _ _ (keeps_registerIn registry source name operation _ _ taken)
    by_cases same : held.source = source
    · rw [registerIn_of_same still same, registerIn_of_same taken same]
      exact ⟨rfl, rfl⟩
    · rw [registerIn_of_other still same, registerIn_of_other taken same]
      exact ⟨rfl, rfl⟩

theorem exists_of_registerIn_eq_error {name : String} {operation : Operation} {error : Error}
    (refused : (registry.registerIn source name operation).result = .error error) :
    ∃ holder, (registry.registerIn source name operation).registry.sourceOf? name = some holder ∧
      holder ≠ source ∧ error = .operationTaken (canonical name) holder source := by
  cases taken : registry.entries.get? (canonical name) with
  | none =>
    rw [registerIn_of_free taken] at refused
    cases refused
  | some held =>
    by_cases same : held.source = source
    · rw [registerIn_of_same taken same] at refused
      cases refused
    · rw [registerIn_of_other taken same] at refused ⊢
      refine ⟨held.source, ?_, same, (Except.error.inj refused).symm⟩
      rw [sourceOf?, taken]
      rfl

/-- An installation that leaves the registry as it was and has the end of another one, where nothing
is new. -/
structure Installation.Repeats (again once : Installation) (before : Registry) : Prop where
  registry : again.registry = before
  error : again.error = once.error
  added : again.added = List.replicate once.added.length false

/-- Operations that are registered again in a registry that keeps what they left. -/
theorem installAll_again {operations : List (String × Operation)}
    (keeps : later.Keeps (registry.installAll source operations).registry) :
    (later.installAll source operations).Repeats (registry.installAll source operations) later := by
  induction operations generalizing registry with
  | nil => exact ⟨rfl, rfl, rfl⟩
  | cons first rest ih =>
    obtain ⟨name, operation⟩ := first
    obtain ⟨same, result⟩ :=
      registerIn_again (keeps.trans (keeps_installAll_cons registry source name operation rest))
    cases answer : (registry.registerIn source (source ++ "." ++ name) operation).result with
    | error error =>
      rw [answer, Except.map] at result
      simp only [installAll, answer, result]
      exact ⟨same, rfl, rfl⟩
    | ok added =>
      rw [answer, Except.map] at result
      simp only [installAll, answer, result, same] at keeps ⊢
      have onward := ih keeps
      exact ⟨onward.registry, onward.error, congrArg (List.cons false) onward.added⟩

theorem length_added_of_error_eq_none {operations : List (String × Operation)}
    (complete : (registry.installAll source operations).error = none) :
    (registry.installAll source operations).added.length = operations.length := by
  induction operations generalizing registry with
  | nil => rfl
  | cons first rest ih =>
    obtain ⟨name, operation⟩ := first
    cases answer : (registry.registerIn source (source ++ "." ++ name) operation).result with
    | error error =>
      simp only [installAll, answer] at complete
      cases complete
    | ok added =>
      simp only [installAll, answer, List.length_cons] at complete ⊢
      rw [ih complete]

theorem exists_of_error_eq_some {operations : List (String × Operation)} {error : Error}
    (stopped : (registry.installAll source operations).error = some error) :
    ∃ name operation holder,
      operations[(registry.installAll source operations).added.length]? = some (name, operation) ∧
      (registry.installAll source operations).registry.sourceOf? (source ++ "." ++ name) =
        some holder ∧
      holder ≠ source ∧
      error = .operationTaken (canonical (source ++ "." ++ name)) holder source := by
  induction operations generalizing registry with
  | nil => cases stopped
  | cons first rest ih =>
    obtain ⟨name, operation⟩ := first
    cases answer : (registry.registerIn source (source ++ "." ++ name) operation).result with
    | error refusal =>
      simp only [installAll, answer, Option.some.injEq] at stopped ⊢
      obtain ⟨holder, held, other, taken⟩ := exists_of_registerIn_eq_error answer
      exact ⟨name, operation, holder, rfl, held, other, stopped.symm.trans taken⟩
    | ok added =>
      simp only [installAll, answer, List.length_cons, List.getElem?_cons_succ] at stopped ⊢
      exact ih stopped

/-- Installing a plugin again has the same end, whether it was installed as a whole or stopped at an
operation that another source holds, and changes nothing: each operation before that one is held for
the plugin and is not new. It is so after any other requests in between as well. -/
theorem install_again (builtins : Bool) (past between : List Request) (plugin : Plugin) :
    let source := canonical plugin.name
    let once := ((start builtins).serve past).install plugin
    (once.registry.install plugin).Repeats once once.registry ∧
    ((once.registry.serve between).install plugin).Repeats once (once.registry.serve between) ∧
    (∀ i name operation, i < once.added.length →
      plugin.operations[i]? = some (name, operation) →
        once.registry.sourceOf? (source ++ "." ++ name) = some source) ∧
    (once.error = none → once.added.length = plugin.operations.length) ∧
    ∀ error, once.error = some error → ∃ name operation holder,
      plugin.operations[once.added.length]? = some (name, operation) ∧
      once.registry.sourceOf? (source ++ "." ++ name) = some holder ∧ holder ≠ source ∧
      error = .operationTaken (canonical (source ++ "." ++ name)) holder source := by
  intro source once
  have records : Records once.registry _ :=
    Request.records_apply (records_history builtins past) (.install plugin)
  refine ⟨installAll_again (Keeps.refl _),
    installAll_again fun _ _ stored => records.get?_serve stored between, ?_,
    length_added_of_error_eq_none, fun _ => exists_of_error_eq_some⟩
  intro i name operation bound listed
  obtain ⟨own, held, -⟩ := storedFor_installAll listed (List.getElem?_eq_getElem bound)
  rw [sourceOf?, canonical_append]
  exact congrArg (Option.map Registration.source) held

/-- A plugin that repeats a name and stops at a name of the surrounding program, each of them
spelled otherwise. -/
theorem install_again_of_spellings :
    let plugin : Plugin :=
      ⟨"A", [("d", Operation.abort), ("D", Operation.log), ("b-c", Operation.abort)]⟩
    let once := ((start false).serve [.register "a.bC" Operation.log]).install plugin
    let twice := once.registry.install plugin
    once.added = [true, false] ∧ twice.added = [false, false] ∧ twice.registry = once.registry ∧
      once.error = some (.operationTaken "a.b_c" "host" "a") ∧ twice.error = once.error := by
  intro plugin once twice
  obtain ⟨again, -, -, -, stops⟩ := install_again false [.register "a.bC" Operation.log] [] plugin
  have added : once.added = [true, false] := by decide +kernel
  have failed : once.error.isSome = true := by decide +kernel
  obtain ⟨error, stopped⟩ := Option.isSome_iff_exists.mp failed
  obtain ⟨name, operation, holder, listed, held, -, taken⟩ := stops error stopped
  have source : canonical plugin.name = "a" := by decide +kernel
  have key : canonical ("a" ++ "." ++ "b-c") = "a.b_c" := by decide +kernel
  have fresh := again.added
  rw [added] at listed fresh
  cases listed
  have host : once.registry.sourceOf? (canonical plugin.name ++ "." ++ "b-c") = some "host" := by
    decide +kernel
  rw [Option.some.inj (held.symm.trans host), source, key] at taken
  exact ⟨added, fresh, again.registry, stopped.trans (congrArg some taken), again.error⟩

end Registry

end Docscript

import Docscript.Operation.Registry
import Docscript.Proofs.Entries

set_option autoImplicit false

namespace Docscript

/-- A registration, whether it was accepted or not. -/
structure Attempt where
  source : String
  name : String
  operation : Operation

namespace Attempt

/-- The name in the one style. -/
def key (attempt : Attempt) : String := OperationName.canonical attempt.name

def registration (attempt : Attempt) : Registration := ⟨attempt.source, attempt.operation⟩

/-- The first of some registrations that were made for a name in the one style. -/
def first? (key : String) (attempts : List Attempt) : Option Attempt :=
  attempts.find? fun attempt => attempt.key == key

theorem first?_append (key : String) (past later : List Attempt) :
    first? key (past ++ later) = (first? key past).or (first? key later) :=
  List.find?_append

theorem first?_singleton (key : String) (attempt : Attempt) :
    first? key [attempt] = if attempt.key = key then some attempt else none := by
  by_cases same : attempt.key = key <;> simp [first?, same]

end Attempt

/-- What a plugin may do as it is installed: registrations one after the other, where the results so
far decide how it goes on. -/
inductive Installer where
  | done
  | register (name : String) (operation : Operation) (next : Except Error Bool → Installer)

/-- A request to a registry. Plugins that do something else than to register their operations up to
the first error are installed by an installer under their names. -/
inductive Request where
  | register (name : String) (operation : Operation)
  | registerIn (source name : String) (operation : Operation)
  | install (plugin : Plugin)
  | installBy (name : String) (installer : Installer)

namespace Registry

variable {registry : Registry} {source name : String} {operation : Operation}
  {past : List Attempt}

theorem registerIn_of_free
    (free : registry.entries.get? (OperationName.canonical name) = none) (source : String)
    (operation : Operation) :
    registerIn source name operation registry =
      ⟨.ok true, ⟨registry.entries ++ [(OperationName.canonical name, ⟨source, operation⟩)]⟩,
        [.registered (OperationName.canonical name) source]⟩ := by
  rw [registerIn, free, Entries.insert_of_not_mem (Entries.get?_eq_none_iff.mp free)]

theorem registerIn_of_same {held : Registration}
    (taken : registry.entries.get? (OperationName.canonical name) = some held)
    (same : held.source = source) (operation : Operation) :
    registerIn source name operation registry =
      ⟨.ok false, registry, [.registeredBefore (OperationName.canonical name) source]⟩ := by
  simp only [registerIn, taken]
  rw [if_pos same]

theorem registerIn_of_other {held : Registration}
    (taken : registry.entries.get? (OperationName.canonical name) = some held)
    (other : held.source ≠ source) (operation : Operation) :
    registerIn source name operation registry =
      ⟨.error (.operationTaken (OperationName.canonical name) held.source source), registry,
        []⟩ := by
  simp only [registerIn, taken]
  rw [if_neg other]

theorem registry_registerIn (source name : String) (operation : Operation) (registry : Registry) :
    (registerIn source name operation registry).registry =
      if registry.entries.get? (OperationName.canonical name) = none then
        ⟨registry.entries.insert (OperationName.canonical name) ⟨source, operation⟩⟩
      else registry := by
  cases taken : registry.entries.get? (OperationName.canonical name) with
  | none => simp [registerIn, taken]
  | some held =>
    rw [if_neg (Option.some_ne_none held)]
    by_cases same : held.source = source
    · rw [registerIn_of_same taken same]
    · rw [registerIn_of_other taken same]

/-- A registration gives a name that was free what is registered, and leaves what is there as it is.
-/
theorem get?_registerIn (source name : String) (operation : Operation) (registry : Registry)
    (key : String) :
    (registerIn source name operation registry).registry.entries.get? key =
      (registry.entries.get? key).or
        (if OperationName.canonical name = key then some ⟨source, operation⟩ else none) := by
  rw [registry_registerIn]
  split
  · next free =>
    rw [Entries.get?_insert]
    split
    · next same => rw [← same, free, Option.none_or]
    · rw [Option.or_none]
  · next taken =>
    split
    · next same =>
      rw [← same, Option.or_of_isSome (Option.isSome_iff_ne_none.mpr taken)]
    · rw [Option.or_none]

/-- A registry that holds what was first to be registered for each name. -/
structure Records (registry : Registry) (past : List Attempt) : Prop where
  once : registry.entries.keys.Nodup
  first : ∀ key, registry.entries.get? key = (Attempt.first? key past).map Attempt.registration

theorem Records.registerIn (records : Records registry past) (source name : String)
    (operation : Operation) :
    Records (registerIn source name operation registry).registry
      (past ++ [⟨source, name, operation⟩]) := by
  constructor
  · rw [registry_registerIn]
    split
    · exact Entries.nodup_keys_insert records.once
    · exact records.once
  · intro key
    rw [get?_registerIn, records.first key, Attempt.first?_append, Attempt.first?_singleton]
    cases Attempt.first? key past with
    | some attempt => rfl
    | none =>
      rw [Option.map_none, Option.none_or, Option.none_or, Attempt.key]
      split <;> rfl

end Registry

namespace Installer

/-- The registry after an installation for a source. -/
def run (source : String) : Installer → Registry → Registry
  | done, registry => registry
  | register name operation next, registry =>
    let outcome := Registry.registerIn source (source ++ "." ++ name) operation registry
    (next outcome.result).run source outcome.registry

/-- The registrations of an installation for a source. -/
def attempts (source : String) : Installer → Registry → List Attempt
  | done, _ => []
  | register name operation next, registry =>
    let outcome := Registry.registerIn source (source ++ "." ++ name) operation registry
    ⟨source, source ++ "." ++ name, operation⟩ ::
      (next outcome.result).attempts source outcome.registry

/-- Registers the operations of a list up to the first error. -/
def ofOperations : List (String × Operation) → Installer
  | [] => done
  | (name, operation) :: rest =>
    register name operation fun
      | .ok _ => ofOperations rest
      | .error _ => done

theorem run_ofOperations (source : String) (operations : List (String × Operation))
    (registry : Registry) :
    (ofOperations operations).run source registry =
      (Registry.installAll source operations registry).registry := by
  induction operations generalizing registry with
  | nil => rfl
  | cons first rest ih =>
    obtain ⟨name, operation⟩ := first
    rw [ofOperations, run, Registry.installAll]
    cases (Registry.registerIn source (source ++ "." ++ name) operation registry).result with
    | ok added => exact ih _
    | error error => rfl

theorem records_run {registry : Registry} {past : List Attempt}
    (records : Registry.Records registry past) (source : String) (installer : Installer) :
    Registry.Records (installer.run source registry)
      (past ++ installer.attempts source registry) := by
  induction installer generalizing registry past with
  | done => simpa [run, attempts] using records
  | register name operation next ih =>
    have onward := ih (Registry.registerIn source (source ++ "." ++ name) operation registry).result
      (records.registerIn source (source ++ "." ++ name) operation)
    rwa [List.append_assoc, List.singleton_append] at onward

end Installer

namespace Request

def apply (registry : Registry) : Request → Registry
  | register name operation => (registry.register name operation).registry
  | registerIn source name operation => (registry.registerIn source name operation).registry
  | install plugin => (registry.install plugin).registry
  | installBy name installer => installer.run (OperationName.canonical name) registry

/-- The registrations that are made on a request. -/
def attempts (registry : Registry) : Request → List Attempt
  | register name operation => [⟨Registry.hostSource, name, operation⟩]
  | registerIn source name operation => [⟨source, name, operation⟩]
  | install plugin =>
    (Installer.ofOperations plugin.operations).attempts (OperationName.canonical plugin.name)
      registry
  | installBy name installer => installer.attempts (OperationName.canonical name) registry

theorem records_apply {registry : Registry} {past : List Attempt}
    (records : Registry.Records registry past) (request : Request) :
    Registry.Records (request.apply registry) (past ++ request.attempts registry) := by
  cases request with
  | register name operation => exact records.registerIn Registry.hostSource name operation
  | registerIn source name operation => exact records.registerIn source name operation
  | install plugin =>
    rw [apply, Registry.install, ← Installer.run_ofOperations]
    exact Installer.records_run records _ _
  | installBy name installer => exact Installer.records_run records _ installer

end Request

namespace Registry

/-- The registry after requests, one after the other. -/
def serve (registry : Registry) (requests : List Request) : Registry :=
  requests.foldl Request.apply registry

/-- The registrations that are made on requests. -/
def attempts (registry : Registry) : List Request → List Attempt
  | [] => []
  | request :: rest => request.attempts registry ++ attempts (request.apply registry) rest

/-- The registry to begin with, with the operations of the library or without them. -/
def start (builtins : Bool) : Registry := if builtins then withBuiltins else empty

/-- The registrations before all requests. -/
def preloaded (builtins : Bool) : List Attempt :=
  if builtins then
    Operation.builtins.map fun (name, operation) => ⟨builtinSource, name, operation⟩
  else []

/-- All registrations, those of the library first. -/
def history (builtins : Bool) (requests : List Request) : List Attempt :=
  preloaded builtins ++ attempts (start builtins) requests

theorem records_serve {registry : Registry} {past : List Attempt} (records : Records registry past)
    (requests : List Request) :
    Records (registry.serve requests) (past ++ registry.attempts requests) := by
  induction requests generalizing registry past with
  | nil => simpa [serve, attempts] using records
  | cons request rest ih =>
    have onward := ih (Request.records_apply records request)
    rwa [List.append_assoc] at onward

theorem get?_map_registration (key : String) (attempts : List Attempt) :
    Entries.get? (attempts.map fun attempt => (attempt.key, attempt.registration)) key =
      (Attempt.first? key attempts).map Attempt.registration := by
  induction attempts with
  | nil => rfl
  | cons attempt rest ih =>
    rw [List.map_cons, Entries.get?, Attempt.first?, List.find?_cons]
    split
    · next same => rw [beq_iff_eq.mpr same, Option.map_some]
    · next other => rw [beq_eq_false_iff_ne.mpr other, ih, Attempt.first?]

theorem records_start (builtins : Bool) : Records (start builtins) (preloaded builtins) := by
  cases builtins with
  | false => exact ⟨List.nodup_nil, fun _ => rfl⟩
  | true =>
    -- The operations of the library are put in without a look at what is there: their names differ.
    have apart : ((preloaded true).map Attempt.key).Nodup := by decide +kernel
    have row : (start true).entries =
        (preloaded true).map fun attempt => (attempt.key, attempt.registration) := by
      apply (Entries.gathers_insertAll _).whole
      rwa [Entries.keys, List.map_map]
    constructor
    · rwa [row, Entries.keys, List.map_map]
    · intro key
      rw [row, get?_map_registration]

theorem records_history (builtins : Bool) (requests : List Request) :
    Records ((start builtins).serve requests) (history builtins requests) :=
  records_serve (records_start builtins) requests

/-- A free name goes to whom it is registered for; a name that is taken stays with whom was first,
who may register it again without effect. -/
theorem Records.answers {registry : Registry} {past : List Attempt}
    (records : Records registry past)
    (source name : String) (operation : Operation) :
    let key := OperationName.canonical name
    let outcome := Registry.registerIn source name operation registry
    (Attempt.first? key past = none → outcome.result = .ok true ∧
      outcome.registry.entries = registry.entries ++ [(key, ⟨source, operation⟩)]) ∧
    ∀ holder, Attempt.first? key past = some holder → outcome.registry = registry ∧
      outcome.result = if holder.source = source then .ok false
        else .error (.operationTaken key holder.source source) := by
  intro key outcome
  have held := records.first key
  constructor
  · intro none
    rw [none] at held
    have free : outcome = _ := registerIn_of_free held source operation
    rw [free]
    exact ⟨rfl, rfl⟩
  · intro holder taken
    rw [taken] at held
    by_cases same : holder.source = source
    · have repeated : outcome = _ := registerIn_of_same held same operation
      rw [repeated, if_pos same]
      exact ⟨rfl, rfl⟩
    · have refused : outcome = _ := registerIn_of_other held same operation
      rw [refused, if_neg same]
      exact ⟨rfl, rfl⟩

theorem Records.get?_serve {registry : Registry} {past : List Attempt}
    (records : Records registry past) {key : String} {held : Registration}
    (stored : registry.entries.get? key = some held) (more : List Request) :
    (registry.serve more).entries.get? key = some held := by
  have later := records_serve records more
  rw [records.first key] at stored
  rw [later.first key, Attempt.first?_append]
  obtain ⟨attempt, found, registered⟩ := Option.map_eq_some_iff.mp stored
  rw [found, Option.some_or, Option.map_some, registered]

/-- Who registers a name first keeps it: a registry has one entry for each name, what was first to
be registered for it, keeps the entry through all further requests, and answers each further
registration by who was first. -/
theorem first_registration_stays (builtins : Bool) (requests : List Request) :
    let registry := (start builtins).serve requests
    let past := history builtins requests
    registry.entries.keys.Nodup ∧
    (∀ key, registry.entries.get? key = (Attempt.first? key past).map Attempt.registration) ∧
    (∀ more key held, registry.entries.get? key = some held →
      (registry.serve more).entries.get? key = some held) ∧
    ∀ source name operation,
      let key := OperationName.canonical name
      let outcome := registerIn source name operation registry
      (Attempt.first? key past = none → outcome.result = .ok true ∧
        outcome.registry.entries = registry.entries ++ [(key, ⟨source, operation⟩)]) ∧
      ∀ holder, Attempt.first? key past = some holder → outcome.registry = registry ∧
        outcome.result = if holder.source = source then .ok false
          else .error (.operationTaken key holder.source source) := by
  intro registry past
  have records : Records registry past := records_history builtins requests
  exact ⟨records.once, records.first, fun more _ _ stored => records.get?_serve stored more,
    records.answers⟩

/-- A plugin that stops at a name of the surrounding program, spelled otherwise. -/
theorem first_registration_stays_across_spellings :
    let requests : List Request := [.register "a.bC" Operation.log,
      .install ⟨"A", [("d", Operation.abort), ("b-c", Operation.abort)]⟩]
    let registry := (start false).serve requests
    (registerIn "a" "a.b_c" Operation.abort registry).result =
        .error (.operationTaken "a.b_c" "host" "a") ∧
      (registerIn "a" "a.D" Operation.log registry).result = .ok false ∧
      (registerIn "a" "a.e" Operation.log registry).result = .ok true := by
  intro requests registry
  obtain ⟨-, holds, -, answers⟩ := first_registration_stays false requests
  have free : Attempt.first? (OperationName.canonical "a.e") (history false requests) = none := by
    decide +kernel
  have source (name holder : String) (owned : registry.sourceOf? name = some holder) :
      ∃ first, Attempt.first? (OperationName.canonical name) (history false requests) = some first ∧
        first.source = holder := by
    rw [sourceOf?, holds, Option.map_map, Option.map_eq_some_iff] at owned
    exact owned
  obtain ⟨host, hosted, fromHost⟩ := source "a.b_c" "host" (by decide +kernel)
  obtain ⟨plugin, listed, fromPlugin⟩ := source "a.D" "a" (by decide +kernel)
  have own : OperationName.canonical "a.b_c" = "a.b_c" := by decide +kernel
  have refused := ((answers "a" "a.b_c" Operation.abort).2 host hosted).2
  have repeated := ((answers "a" "a.D" Operation.log).2 plugin listed).2
  have added := ((answers "a" "a.e" Operation.log).1 free).1
  rw [fromHost, own, if_neg (by decide)] at refused
  rw [fromPlugin, if_pos rfl] at repeated
  exact ⟨refused, repeated, added⟩

end Registry

end Docscript

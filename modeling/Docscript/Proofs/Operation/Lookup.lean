import Docscript.Proofs.Operation.History
import Docscript.Proofs.Operation.Names

/- A name is listed as it was folded when it was registered, and it is folded again when it is
looked up. The name of a plugin is folded twice as well, once as it is installed and once with the
names of its operations. -/

set_option autoImplicit false

namespace Docscript

namespace Registry

open OperationName (canonical settles canonical_canonical_iff canonical_append)

variable {registry : Registry} {past : List Attempt} {name : String}

theorem mem_names_iff : name ∈ registry.names ↔ name ∈ registry.entries.keys :=
  List.mem_mergeSort

theorem Records.nodup_names (records : Records registry past) : registry.names.Nodup :=
  (List.mergeSort_perm _ _).nodup_iff.mpr records.once

theorem Records.first_of_mem_names (records : Records registry past)
    (listed : name ∈ registry.names) :
    ∃ attempt, Attempt.first? name past = some attempt ∧ attempt.key = name ∧
      registry.entries.get? name = some attempt.registration := by
  have stored : registry.entries.get? name ≠ none := by
    rw [ne_eq, Entries.get?_eq_none_iff, not_not]
    exact mem_names_iff.mp listed
  rw [records.first name] at stored ⊢
  cases found : Attempt.first? name past with
  | none =>
    rw [found] at stored
    exact absurd rfl stored
  | some attempt =>
    have key := List.find?_some found
    exact ⟨attempt, rfl, beq_iff_eq.mp key, rfl⟩

theorem lookups_of_canonical {held : Registration} (same : canonical name = name)
    (stored : registry.entries.get? name = some held) :
    registry.contains name = true ∧ registry.sourceOf? name = some held.source ∧
      registry.get? name = some held.operation := by
  rw [contains, sourceOf?, get?, same, Entries.contains, stored]
  exact ⟨rfl, rfl, rfl⟩

/-- A registry holds every entry of another one. -/
def Keeps (later registry : Registry) : Prop :=
  ∀ key held, registry.entries.get? key = some held → later.entries.get? key = some held

theorem Keeps.refl (registry : Registry) : registry.Keeps registry := fun _ _ stored => stored

theorem Keeps.trans {last later : Registry} (keeps : last.Keeps later)
    (before : later.Keeps registry) : last.Keeps registry :=
  fun key held stored => keeps key held (before key held stored)

theorem keeps_registerIn (registry : Registry) (source name : String) (operation : Operation) :
    (registry.registerIn source name operation).registry.Keeps registry := by
  intro key held stored
  rw [get?_registerIn, stored, Option.some_or]

theorem keeps_installAll (registry : Registry) (source : String)
    (operations : List (String × Operation)) :
    (registry.installAll source operations).registry.Keeps registry := by
  induction operations generalizing registry with
  | nil => exact Keeps.refl registry
  | cons first rest ih =>
    obtain ⟨name, operation⟩ := first
    have kept := keeps_registerIn registry source (source ++ "." ++ name) operation
    rw [installAll]
    split
    · exact kept
    · exact (ih _).trans kept

theorem keeps_installAll_cons (registry : Registry) (source name : String) (operation : Operation)
    (rest : List (String × Operation)) :
    (registry.installAll source ((name, operation) :: rest)).registry.Keeps
      (registry.registerIn source (source ++ "." ++ name) operation).registry := by
  rw [installAll]
  split
  · exact Keeps.refl _
  · exact keeps_installAll _ source rest

/-- An operation is stored for a plugin: its own if it was added, else one that the plugin has
registered before. -/
def StoredFor (registry : Registry) (plugin name : String) (operation : Operation) (added : Bool) :
    Prop :=
  ∃ own, registry.entries.get? (canonical (canonical plugin) ++ "." ++ canonical name) =
      some ⟨canonical plugin, own⟩ ∧ (added = true → own = operation)

theorem StoredFor.of_keeps {later : Registry} {plugin : String} {operation : Operation}
    {added : Bool} (stored : registry.StoredFor plugin name operation added)
    (keeps : later.Keeps registry) :
    later.StoredFor plugin name operation added := by
  obtain ⟨own, held, same⟩ := stored
  exact ⟨own, keeps _ _ held, same⟩

theorem storedFor_registerIn {plugin : String} {operation : Operation} {added : Bool}
    (accepted : (registry.registerIn (canonical plugin) (canonical plugin ++ "." ++ name)
      operation).result = .ok added) :
    (registry.registerIn (canonical plugin) (canonical plugin ++ "." ++ name)
      operation).registry.StoredFor plugin name operation added := by
  rw [StoredFor, ← canonical_append]
  cases taken : registry.entries.get? (canonical (canonical plugin ++ "." ++ name)) with
  | none =>
    refine ⟨operation, ?_, fun _ => rfl⟩
    rw [get?_registerIn, taken, if_pos rfl, Option.none_or]
  | some held =>
    by_cases same : held.source = canonical plugin
    · -- Rewriting with `same` would reach the key as well.
      have own : held = ⟨canonical plugin, held.operation⟩ := by rw [← same]
      rw [registerIn_of_same taken same] at accepted ⊢
      refine ⟨held.operation, taken.trans (congrArg some own), fun fresh => ?_⟩
      rw [Except.ok.injEq, fresh] at accepted
      exact absurd accepted Bool.false_ne_true
    · rw [registerIn_of_other taken same] at accepted
      exact absurd accepted nofun

theorem storedFor_installAll {plugin : String} {operations : List (String × Operation)} {i : Nat}
    {operation : Operation} {added : Bool} (listed : operations[i]? = some (name, operation))
    (accepted : (registry.installAll (canonical plugin) operations).added[i]? = some added) :
    (registry.installAll (canonical plugin) operations).registry.StoredFor plugin name operation
      added := by
  induction operations generalizing registry i with
  | nil => cases listed
  | cons first rest ih =>
    obtain ⟨firstName, firstOperation⟩ := first
    cases answer : (registry.registerIn (canonical plugin) (canonical plugin ++ "." ++ firstName)
      firstOperation).result with
    | error error =>
      simp only [installAll, answer, List.getElem?_nil] at accepted
      cases accepted
    | ok result =>
      simp only [installAll, answer] at accepted ⊢
      cases i with
      | zero =>
        simp only [List.getElem?_cons_zero, Option.some.injEq, Prod.mk.injEq] at listed accepted
        obtain ⟨rfl, rfl⟩ := listed
        rw [accepted] at answer
        exact (storedFor_registerIn answer).of_keeps (keeps_installAll _ _ rest)
      | succ i => exact ih listed accepted

/-- A second folding leaves a name alone exactly if no word is hidden in it. So each name that a
registry lists is the folding of a name that was registered, and is looked up as it is exactly if no
word is hidden in that one. What a plugin adds is stored under the twofold folding of its name. -/
theorem names_lead_to_entries (builtins : Bool) (requests : List Request) :
    (∀ name, canonical (canonical name) = canonical name ↔ settles name = true) ∧
    let registry := (start builtins).serve requests
    registry.names.Nodup ∧
    (∀ name ∈ registry.names, ∃ attempt,
      Attempt.first? name (history builtins requests) = some attempt ∧
      name = canonical attempt.name ∧
      registry.entries.get? name = some attempt.registration ∧
      (canonical name = name ↔ settles attempt.name = true) ∧
      (settles attempt.name = true → registry.contains name = true ∧
        registry.sourceOf? name = some attempt.source ∧
        registry.get? name = some attempt.operation)) ∧
    ∀ (plugin : Plugin) (i : Nat) name operation added,
      plugin.operations[i]? = some (name, operation) →
      (registry.install plugin).added[i]? = some added →
      (registry.install plugin).registry.StoredFor plugin.name name operation added := by
  refine ⟨canonical_canonical_iff, ?_⟩
  intro registry
  have records : Records registry (history builtins requests) := records_history builtins requests
  refine ⟨records.nodup_names, ?_, ?_⟩
  · intro name listed
    obtain ⟨attempt, first, key, stored⟩ := records.first_of_mem_names listed
    have settles : canonical name = name ↔ settles attempt.name = true := by
      rw [← key, Attempt.key, canonical_canonical_iff]
    exact ⟨attempt, first, key.symm, stored, settles,
      fun settled => lookups_of_canonical (settles.mpr settled) stored⟩
  · intro plugin i name operation added listed accepted
    exact storedFor_installAll listed accepted

/-- A name that is spelled in two ways, and a plugin. -/
theorem names_lead_to_entries_of_spellings :
    let registry := (start false).serve [.register "a.bC" Operation.log]
    "a.b_c" ∈ registry.names ∧ registry.contains "a.b_c" = true ∧
      (registry.install ⟨"Ab", [("cD", Operation.abort)]⟩).registry.StoredFor "Ab" "cD"
        Operation.abort true := by
  intro registry
  obtain ⟨-, -, lead, stored⟩ := names_lead_to_entries false [.register "a.bC" Operation.log]
  have listed : "a.b_c" ∈ registry.names := by
    rw [mem_names_iff]
    decide +kernel
  obtain ⟨attempt, -, -, -, settles, found⟩ := lead "a.b_c" listed
  have settled := settles.mp (by decide +kernel)
  exact ⟨listed, (found settled).1,
    stored ⟨"Ab", [("cD", Operation.abort)]⟩ 0 _ _ true rfl (by decide +kernel)⟩

/-- A registered name that is listed and not found. -/
theorem not_forall_canonical_canonical :
    (¬ ∀ name, canonical (canonical name) = canonical name) ∧
    ¬ ∀ requests, ∀ name ∈ ((start false).serve requests).names,
      ((start false).serve requests).contains name = true := by
  constructor
  · intro always
    exact absurd (always "A\u2102") (by decide +kernel)
  · intro always
    have listed : "a\u2102" ∈ ((start false).serve [.register "A\u2102" Operation.log]).names := by
      rw [mem_names_iff]
      decide +kernel
    have found := always [.register "A\u2102" Operation.log] _ listed
    exact absurd found (by decide +kernel)

end Registry

end Docscript

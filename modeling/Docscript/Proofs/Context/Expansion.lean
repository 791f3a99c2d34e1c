import Docscript.Proofs.Context.Frame
import Docscript.Proofs.Context.Unfolding

set_option autoImplicit false

namespace Docscript

namespace Context

variable {row names : List String} {entry : String × Value} {entries : Entries Value}

/-- A value inside one object for each name has nothing on the rows that part from the names. -/
theorem misses_nest (value : Value) (apart : Apart names row) :
    (nest value names).misses row = true := by
  induction names generalizing row with
  | nil => exact absurd rfl apart.ne_nil.1
  | cons name rest ih =>
    obtain ⟨next, below, rfl⟩ := List.exists_cons_of_ne_nil apart.ne_nil.2
    rw [apart_cons_iff] at apart
    rw [nest, Value.misses_object_cons, Entries.get?]
    split
    · next same => exact ih (apart same)
    · rfl

theorem misses_unfolding (nonempty : row ≠ [])
    (apart : unfoldedNames entry.1 = [] ∨ Apart (unfoldedNames entry.1) row) :
    (unfolding entry).misses row = true := by
  cases named : unfoldedNames entry.1 with
  | nil =>
    obtain ⟨name, rest, rfl⟩ := List.exists_cons_of_ne_nil nonempty
    simp only [unfolding, unfoldEntry, named, Value.misses_object_cons, Entries.get?_nil,
      Option.all_none]
  | cons first rest =>
    rw [unfolding_of_names named]
    rcases apart with none | apart
    · rw [named] at none
      cases none
    · exact misses_nest entry.2 (named ▸ apart)

theorem follow?_unfoldEntry_of_apart (done : Entries Value) (unique : entry.2.UniqueKeys)
    (apart : Apart (unfoldedNames entry.1) row) :
    (Value.object (unfoldEntry done entry)).follow? row = (Value.object done).follow? row := by
  rw [unfoldEntry_eq_merge, follow?_merge_of_misses _ (uniqueKeys_unfolding unique)
    (misses_unfolding apart.ne_nil.2 (.inr apart)), Option.bind_some]

theorem isDotted_of_mem_keys_expanded {c : Context} {name : String}
    (member : name ∈ c.expanded.entries.keys) : isDotted name = false := by
  rw [expanded] at member
  split at member
  · cases dotted : isDotted name with
    | false => rfl
    | true =>
      have absent : Entries.get? (c.entries.foldl unfoldEntry []) name = none :=
        get?_foldl_unfoldEntry_of_isDotted dotted
      exact absurd member (Entries.get?_eq_none_iff.mp absent)
  · next undotted =>
    obtain ⟨entry, inside, rfl⟩ := List.mem_map.mp member
    have each : ∀ entry ∈ c.entries, isDotted entry.1 = false := by
      simpa [hasDotted] using undotted
    exact each entry inside

theorem hasDotted_expanded (c : Context) : c.expanded.hasDotted = false := by
  rw [hasDotted, List.any_eq_false]
  intro entry member
  rw [isDotted_of_mem_keys_expanded (List.mem_map_of_mem member)]
  exact Bool.false_ne_true

theorem expanded_expanded (c : Context) : c.expanded.expanded = c.expanded := by
  rw [expanded, hasDotted_expanded, if_neg Bool.false_ne_true]

theorem follow?_expanded_of_last {c : Context} {before after : Entries Value} {name : String}
    {value : Value} (unique : c.toValue.UniqueKeys)
    (split : c.entries = before ++ (name, value) :: after) (plain : value.isObject = false)
    (named : unfoldedNames name ≠ [])
    (last : ∀ entry ∈ after,
      unfoldedNames entry.1 = [] ∨ Apart (unfoldedNames entry.1) (unfoldedNames name)) :
    c.expanded.toValue.follow? (unfoldedNames name) = some value := by
  by_cases dotted : c.hasDotted = true
  · have each : ∀ entry ∈ before ++ (name, value) :: after, entry.2.UniqueKeys := by
      rw [toValue, Value.UniqueKeys] at unique
      exact split ▸ fun entry => Value.uniqueKeys_of_mem unique.2
    have settled : Settled before after (unfoldedNames name) value :=
      ⟨fun entry member => misses_unfolding named (last entry member),
        fun shape => by rw [plain] at shape; cases shape⟩
    have own : (unfolding (name, value)).follow? (unfoldedNames name) = some value := by
      simpa using follow?_unfolding (name, value) named []
    rw [expanded, if_pos dotted, toValue, split]
    exact follow?_foldl_of_settled each settled named own
  · -- Nothing is unfolded here, and the name is its own row.
    have single : unfoldedNames name = [name] := by
      have member : (name, value) ∈ c.entries := by simp [split]
      have undotted : isDotted name = false := by
        have each : ∀ entry ∈ c.entries, isDotted entry.1 = false := by
          simpa [hasDotted] using dotted
        exact each _ member
      rw [unfoldedNames, undotted]
      rfl
    rw [expanded, if_neg dotted, single, toValue, Value.follow?_object_cons,
      get?_of_split unique split, Option.bind_some, Value.follow?_nil]

/-- Unfolding leaves no dotted name, and changes nothing the second time. The last writer wins: a
value that is no object is found at the row of its name, unless a later entry has the same row, or
one that begins with it, or that it begins with; for merging an entry leaves alone all that lies on
rows of names which part from its own. -/
theorem expanded_last_writer (c : Context) (unique : c.toValue.UniqueKeys) :
    (∀ name ∈ c.expanded.entries.keys, isDotted name = false) ∧
      c.expanded.expanded = c.expanded ∧
      (∀ before name value after, c.entries = before ++ (name, value) :: after →
        value.isObject = false → unfoldedNames name ≠ [] →
        (∀ entry ∈ after,
          unfoldedNames entry.1 = [] ∨ Apart (unfoldedNames entry.1) (unfoldedNames name)) →
        c.expanded.toValue.follow? (unfoldedNames name) = some value) ∧
      ∀ entry ∈ c.entries, ∀ row, Apart (unfoldedNames entry.1) row → ∀ done : Entries Value,
        (Value.object (unfoldEntry done entry)).follow? row =
          (Value.object done).follow? row := by
  refine ⟨fun name => isDotted_of_mem_keys_expanded, expanded_expanded c, ?_, ?_⟩
  · intro before name value after split plain named last
    exact follow?_expanded_of_last unique split plain named last
  · intro entry member row apart done
    rw [toValue, Value.UniqueKeys] at unique
    exact follow?_unfoldEntry_of_apart done (Value.uniqueKeys_of_mem unique.2 member) apart

/-- A number in the way of a dotted name gives way, and a later name beside it is put beside it. -/
theorem expanded_last_writer_through_number :
    let c : Context := ⟨[("a", .int 1), ("a..b", .int 2), (".", .int 3),
      ("a.c", .object [("d", .int 4)])]⟩
    c.toValue.UniqueKeys ∧ unfoldedNames "a..b" = ["a", "b"] ∧
      Apart (unfoldedNames "a.c") (unfoldedNames "a..b") ∧
      c.expanded.toValue.follow? ["a", "b"] = some (.int 2) := by
  intro c
  have unique : c.toValue.UniqueKeys := by
    simp [c, toValue, Value.UniqueKeys, Value.UniqueKeysEntries, Entries.keys, Value.int]
  have parts : unfoldedNames "a..b" = ["a", "b"] := by decide
  have apart : Apart (unfoldedNames "a.c") (unfoldedNames "a..b") := by decide
  have last : ∀ entry ∈ [(".", Value.int 3), ("a.c", .object [("d", .int 4)])],
      unfoldedNames entry.1 = [] ∨ Apart (unfoldedNames entry.1) (unfoldedNames "a..b") := by
    rw [List.forall_mem_cons, List.forall_mem_singleton]
    exact ⟨.inl (by decide), .inr apart⟩
  have found := (expanded_last_writer c unique).2.2.1 [("a", .int 1)] "a..b" (.int 2) _ rfl rfl
    (by decide) last
  exact ⟨unique, parts, apart, parts ▸ found⟩

end Context

end Docscript

import Docscript.Proofs.Value.Inheritance

/- Each entry is merged, as the small object that it unfolds to by itself, into what the entries
before it have made. A value gets to its row of names unless it is an object and one is there
already, and it stays as long as what is merged later leaves its row at some object. -/

set_option autoImplicit false

namespace Docscript

namespace Value

def isObject : Value → Bool
  | .object _ => true
  | _ => false

theorem exists_of_isObject {value : Value} (shape : value.isObject = true) :
    ∃ entries : Entries Value, value = .object entries := by
  cases value with
  | object entries => exact ⟨entries, rfl⟩
  | _ => cases shape

/-- Whether a row of names leaves a value at an object that has no such entry. -/
def misses : Value → List String → Bool
  | .object entries, name :: rest =>
    match Entries.get? entries name with
    | some inner => misses inner rest
    | none => true
  | _, _ => false

theorem misses_object_cons (entries : Entries Value) (name : String) (rest : List String) :
    (object entries).misses (name :: rest) = (entries.get? name).all (·.misses rest) := by
  rw [misses]
  cases entries.get? name <;> rfl

theorem exists_of_misses {value : Value} {row : List String} (missed : value.misses row = true) :
    ∃ (entries : Entries Value) (name : String) (rest : List String),
      value = object entries ∧ row = name :: rest := by
  cases row with
  | nil => cases value <;> cases missed
  | cons name rest =>
    cases value with
    | object entries => exact ⟨entries, name, rest, rfl, rfl⟩
    | _ => cases missed

theorem follow?_of_misses {value : Value} {row : List String} (missed : value.misses row = true) :
    value.follow? row = none := by
  induction row generalizing value with
  | nil => cases value <;> cases missed
  | cons name rest ih =>
    obtain ⟨entries, _, _, rfl, _⟩ := exists_of_misses missed
    rw [misses_object_cons] at missed
    rw [follow?_object_cons]
    cases stored : Entries.get? entries name with
    | none => rfl
    | some inner =>
      rw [stored, Option.all_some] at missed
      exact ih missed

theorem follow?_cons_of_not_isObject {value : Value} (plain : value.isObject = false)
    (name : String) (rest : List String) : value.follow? (name :: rest) = none := by
  cases value with
  | object entries => cases plain
  | _ => rfl

end Value

namespace Context

@[simp] theorem merge_none (value : Value) : merge none value = value := by
  cases value <;> simp [merge]

theorem merge_of_not_isObject (old : Option Value) {value : Value}
    (plain : value.isObject = false) : merge old value = value := by
  cases value with
  | object entries => cases plain
  | _ => simp [merge]

@[simp] theorem merge_object_object (entries additions : Entries Value) :
    merge (some (.object entries)) (.object additions) =
      .object (mergeEntries entries additions) := by
  rw [merge]

theorem merge_object_of_not_isObject {value : Value} (plain : value.isObject = false)
    (additions : Entries Value) : merge (some value) (.object additions) = .object additions := by
  cases value with
  | object entries => cases plain
  | _ => simp [merge]

/-- Entries are merged one by one, each with the old entry of its key. -/
theorem get?_mergeEntries {entries additions : Entries Value} (unique : additions.keys.Nodup)
    (key : String) :
    (mergeEntries entries additions).get? key =
      match additions.get? key with
      | some value => some (merge (entries.get? key) value)
      | none => entries.get? key := by
  induction additions generalizing entries with
  | nil => rw [mergeEntries]; rfl
  | cons entry rest ih =>
    obtain ⟨name, value⟩ := entry
    rw [Entries.keys, List.map_cons, List.nodup_cons] at unique
    rw [mergeEntries, ih unique.2, Entries.get?]
    by_cases same : name = key
    · subst same
      have absent : Entries.get? rest name = none := Entries.get?_eq_none_iff.mpr unique.1
      rw [absent, if_pos rfl]
      exact Entries.get?_insert_self entries name _
    · rw [if_neg same, Entries.get?_insert, if_neg same]

/-- The entry around which a context with unique names is split is the one found by its name. -/
theorem get?_of_split {c : Context} {name : String} {value : Value} {before after : Entries Value}
    (unique : c.toValue.UniqueKeys) (split : c.entries = before ++ (name, value) :: after) :
    c.entries.get? name = some value := by
  have apart := Value.nodup_keys_of_uniqueKeys unique
  rw [split] at apart ⊢
  apply Entries.get?_append_cons
  rw [Entries.keys, List.map_append, List.nodup_append] at apart
  intro member
  exact apart.2.2 name member name (by simp) rfl

variable {old tree node : Value} {row : List String}

/-- What is merged leaves all that lies on a row of names which it misses: what was there is still
there, and nothing is added. -/
theorem follow?_merge_of_misses (old : Option Value) (unique : tree.UniqueKeys)
    (missed : tree.misses row = true) :
    (merge old tree).follow? row = old.bind (Value.follow? · row) := by
  induction row generalizing old tree with
  | nil => cases tree <;> cases missed
  | cons name rest ih =>
    obtain ⟨additions, _, _, rfl, _⟩ := Value.exists_of_misses missed
    have absent := Value.follow?_of_misses missed
    cases old with
    | none => rw [merge_none, absent, Option.bind_none]
    | some value =>
      cases shape : value.isObject with
      | false =>
        rw [merge_object_of_not_isObject shape, absent, Option.bind_some,
          Value.follow?_cons_of_not_isObject shape]
      | true =>
        obtain ⟨entries, rfl⟩ := Value.exists_of_isObject shape
        have apart := Value.nodup_keys_of_uniqueKeys unique
        rw [merge_object_object, Option.bind_some, Value.follow?_object_cons,
          Value.follow?_object_cons, get?_mergeEntries apart]
        rw [Value.misses_object_cons] at missed
        cases added : Entries.get? additions name with
        | none => rfl
        | some addition =>
          rw [added, Option.all_some] at missed
          exact ih (Entries.get? entries name) (Value.uniqueKeys_of_get? unique added) missed

/-- A value is put at its row of names, unless it is an object and is merged with one that is
there. -/
theorem follow?_merge_of_found (old : Option Value) (unique : tree.UniqueKeys)
    (found : tree.follow? row = some node)
    (free : node.isObject = true → (old.bind (Value.follow? · row)).any Value.isObject = false) :
    (merge old tree).follow? row = some node := by
  induction row generalizing old tree with
  | nil =>
    rw [Value.follow?_nil, Option.some.injEq] at found
    subst found
    cases shape : tree.isObject with
    | false => rw [merge_of_not_isObject old shape, Value.follow?_nil]
    | true =>
      obtain ⟨additions, rfl⟩ := Value.exists_of_isObject shape
      cases old with
      | none => rw [merge_none, Value.follow?_nil]
      | some value =>
        have plain : value.isObject = false := by simpa using free shape
        rw [merge_object_of_not_isObject plain, Value.follow?_nil]
  | cons name rest ih =>
    obtain ⟨additions, inner, rfl, added, below⟩ := Value.follow?_cons_eq_some found
    have apart := Value.nodup_keys_of_uniqueKeys unique
    cases old with
    | none => rw [merge_none, found]
    | some value =>
      cases shape : value.isObject with
      | false => rw [merge_object_of_not_isObject shape, found]
      | true =>
        obtain ⟨entries, rfl⟩ := Value.exists_of_isObject shape
        rw [Option.bind_some, Value.follow?_object_cons] at free
        rw [merge_object_object, Value.follow?_object_cons, get?_mergeEntries apart, added]
        exact ih (Entries.get? entries name) (Value.uniqueKeys_of_get? unique added) below free

theorem any_isObject_merge (old : Option Value) (unique : tree.UniqueKeys)
    (before : (old.bind (Value.follow? · row)).any Value.isObject = false)
    (added : (tree.follow? row).any Value.isObject = false) :
    ((merge old tree).follow? row).any Value.isObject = false := by
  induction row generalizing old tree with
  | nil =>
    have plain : tree.isObject = false := by simpa using added
    rwa [merge_of_not_isObject old plain]
  | cons name rest ih =>
    cases shape : tree.isObject with
    | false => rwa [merge_of_not_isObject old shape]
    | true =>
      obtain ⟨additions, rfl⟩ := Value.exists_of_isObject shape
      have apart := Value.nodup_keys_of_uniqueKeys unique
      cases old with
      | none => rwa [merge_none]
      | some value =>
        cases place : value.isObject with
        | false => rwa [merge_object_of_not_isObject place]
        | true =>
          obtain ⟨entries, rfl⟩ := Value.exists_of_isObject place
          rw [Option.bind_some, Value.follow?_object_cons] at before
          rw [Value.follow?_object_cons] at added
          rw [merge_object_object, Value.follow?_object_cons, get?_mergeEntries apart]
          cases addition : Entries.get? additions name with
          | none => exact before
          | some inner =>
            rw [addition, Option.bind_some] at added
            exact ih (Entries.get? entries name) (Value.uniqueKeys_of_get? unique addition)
              before added

/-- What an entry unfolds to by itself. -/
def unfolding (entry : String × Value) : Value := .object (unfoldEntry [] entry)

theorem unfolding_of_names {entry : String × Value} {first : String} {rest : List String}
    (named : unfoldedNames entry.1 = first :: rest) :
    unfolding entry = .object [(first, nest entry.2 rest)] := by
  simp only [unfolding, unfoldEntry, named, Entries.get?_nil, merge_none, Entries.insert]

theorem unfoldEntry_eq_merge (done : Entries Value) (entry : String × Value) :
    Value.object (unfoldEntry done entry) = merge (some (.object done)) (unfolding entry) := by
  cases named : unfoldedNames entry.1 with
  | nil => simp [unfolding, unfoldEntry, named, mergeEntries]
  | cons first rest =>
    rw [unfolding_of_names named, merge_object_object, mergeEntries, mergeEntries, unfoldEntry,
      named]

theorem follow?_nest (value : Value) (names below : List String) :
    (nest value names).follow? (names ++ below) = value.follow? below := by
  induction names with
  | nil => rfl
  | cons name rest ih => simp [nest, Entries.get?, ih]

theorem follow?_unfolding (entry : String × Value) (named : unfoldedNames entry.1 ≠ [])
    (below : List String) :
    (unfolding entry).follow? (unfoldedNames entry.1 ++ below) = entry.2.follow? below := by
  obtain ⟨first, rest, parts⟩ := List.exists_cons_of_ne_nil named
  rw [unfolding_of_names parts, parts, List.cons_append, Value.follow?_object_cons]
  simpa [Entries.get?] using follow?_nest entry.2 rest below

theorem uniqueKeys_singleton {value : Value} (unique : value.UniqueKeys) (name : String) :
    (Value.object [(name, value)]).UniqueKeys := by
  rw [Value.UniqueKeys, Value.UniqueKeysEntries, Value.UniqueKeysEntries]
  exact ⟨by simp [Entries.keys], unique, trivial⟩

theorem uniqueKeys_nest {value : Value} (unique : value.UniqueKeys) (names : List String) :
    (nest value names).UniqueKeys := by
  induction names with
  | nil => exact unique
  | cons name rest ih => exact uniqueKeys_singleton ih name

theorem uniqueKeys_unfolding {entry : String × Value} (unique : entry.2.UniqueKeys) :
    (unfolding entry).UniqueKeys := by
  cases named : unfoldedNames entry.1 with
  | nil =>
    simp [unfolding, unfoldEntry, named, Value.UniqueKeys, Value.UniqueKeysEntries, Entries.keys]
  | cons first rest =>
    rw [unfolding_of_names named]
    exact uniqueKeys_singleton (uniqueKeys_nest unique rest) first

variable {entries before after : Entries Value} {source : String × Value}

/-- Later entries leave a value alone whose row of names they miss. -/
theorem follow?_foldl_of_misses (done : Entries Value)
    (unique : ∀ entry ∈ entries, entry.2.UniqueKeys)
    (missed : ∀ entry ∈ entries, (unfolding entry).misses row = true)
    (found : (Value.object done).follow? row = some node) :
    (Value.object (entries.foldl unfoldEntry done)).follow? row = some node := by
  induction entries generalizing done with
  | nil => exact found
  | cons entry rest ih =>
    rw [List.forall_mem_cons] at unique missed
    apply ih (unfoldEntry done entry) unique.2 missed.2
    rw [unfoldEntry_eq_merge, follow?_merge_of_misses _ (uniqueKeys_unfolding unique.1) missed.1]
    exact found

/-- Entries that unfold to no object at a row of names do not make one there. -/
theorem any_isObject_foldl (done : Entries Value)
    (unique : ∀ entry ∈ entries, entry.2.UniqueKeys)
    (added : ∀ entry ∈ entries, ((unfolding entry).follow? row).any Value.isObject = false)
    (fresh : ((Value.object done).follow? row).any Value.isObject = false) :
    ((Value.object (entries.foldl unfoldEntry done)).follow? row).any Value.isObject = false := by
  induction entries generalizing done with
  | nil => exact fresh
  | cons entry rest ih =>
    rw [List.forall_mem_cons] at unique added
    apply ih (unfoldEntry done entry) unique.2 added.2
    rw [unfoldEntry_eq_merge]
    exact any_isObject_merge _ (uniqueKeys_unfolding unique.1) fresh added.1

/-- The entries around one entry leave the value alone that it puts at a row of names: later ones
unfold to nothing there, and an object is not merged with an earlier one. -/
structure Settled (before after : Entries Value) (row : List String) (node : Value) : Prop where
  later : ∀ entry ∈ after, (unfolding entry).misses row = true
  earlier : node.isObject = true →
    ∀ entry ∈ before, ((unfolding entry).follow? row).any Value.isObject = false

theorem follow?_foldl_of_settled (unique : ∀ entry ∈ before ++ source :: after, entry.2.UniqueKeys)
    (settled : Settled before after row node) (nonempty : row ≠ [])
    (found : (unfolding source).follow? row = some node) :
    (Value.object ((before ++ source :: after).foldl unfoldEntry [])).follow? row = some node := by
  rw [List.forall_mem_append, List.forall_mem_cons] at unique
  obtain ⟨front, own, back⟩ := unique
  rw [List.foldl_append, List.foldl_cons]
  apply follow?_foldl_of_misses _ back settled.later
  rw [unfoldEntry_eq_merge]
  apply follow?_merge_of_found _ (uniqueKeys_unfolding own) found
  intro shape
  apply any_isObject_foldl [] front (settled.earlier shape)
  obtain ⟨name, rest, rfl⟩ := List.exists_cons_of_ne_nil nonempty
  rfl

theorem isDotted_of_mem_unfoldedNames {name part : String} (member : part ∈ unfoldedNames name) :
    isDotted part = false := by
  rw [unfoldedNames] at member
  split at member
  · exact isDotted_of_mem_names member
  · next undotted =>
    rw [List.mem_singleton.mp member]
    simpa using undotted

theorem get?_unfoldEntry_of_ne {name : String} {entry : String × Value} (done : Entries Value)
    (apart : (unfoldedNames entry.1).head? ≠ some name) :
    (unfoldEntry done entry).get? name = done.get? name := by
  rw [unfoldEntry]
  split
  · rfl
  · next first rest named =>
    have different : first ≠ name := by
      rintro rfl
      exact apart (by rw [named, List.head?_cons])
    rw [Entries.get?_insert, if_neg different]

theorem get?_foldl_unfoldEntry_of_ne {name : String} (done : Entries Value)
    (other : ∀ entry ∈ entries, (unfoldedNames entry.1).head? ≠ some name)
    (fresh : done.get? name = none) :
    Entries.get? (entries.foldl unfoldEntry done) name = none := by
  induction entries generalizing done with
  | nil => exact fresh
  | cons entry rest ih =>
    rw [List.forall_mem_cons] at other
    apply ih (unfoldEntry done entry) other.2
    rw [get?_unfoldEntry_of_ne done other.1, fresh]

theorem get?_foldl_unfoldEntry_of_isDotted {name : String} (dotted : isDotted name = true) :
    Entries.get? (entries.foldl unfoldEntry []) name = none := by
  apply get?_foldl_unfoldEntry_of_ne [] _ rfl
  intro entry _ same
  have undotted := isDotted_of_mem_unfoldedNames (List.mem_of_head? same)
  simp [undotted] at dotted

end Context

end Docscript

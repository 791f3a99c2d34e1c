import Docscript.Proofs.Context.Lookup

/- A write goes through the names of its path, a look-up prefers a top-level name that is the whole
path; the two meet except where such a name has a dot in it. -/

set_option autoImplicit false

namespace Docscript

namespace Context

theorem write_cons_cons (value : Value) (name next : String) (rest : List String)
    (entries : Entries Value) :
    write value (name :: next :: rest) entries =
      entries.insert name (.object (write value (next :: rest) (entriesOf (entries.get? name)))) :=
  rfl

theorem follow?_write (value : Value) (name : String) (rest : List String)
    (entries : Entries Value) :
    (Value.object (write value (name :: rest) entries)).follow? (name :: rest) = some value := by
  induction rest generalizing name entries with
  | nil => simp [write]
  | cons next rest ih =>
    rw [write_cons_cons, Value.follow?_object_cons, Entries.get?_insert_self, Option.bind_some]
    exact ih next _

theorem follow?_setPath (c : Context) {path : String} (value : Value) (named : names path ≠ []) :
    (c.setPath path value).toValue.follow? (names path) = some value := by
  obtain ⟨name, rest, parts⟩ := List.exists_cons_of_ne_nil named
  rw [setPath, parts]
  exact follow?_write value name rest c.entries

theorem get?_write_of_ne {name key : String} (other : name ≠ key) (value : Value)
    (rest : List String) (entries : Entries Value) :
    Entries.get? (write value (name :: rest) entries) key = entries.get? key := by
  cases rest with
  | nil => rw [write, Entries.get?_insert, if_neg other]
  | cons next rest => rw [write_cons_cons, Entries.get?_insert, if_neg other]

/-- No write is felt at a dotted top-level name. -/
theorem get?_setPath_of_isDotted {key : String} (dotted : isDotted key = true) (c : Context)
    (path : String) (value : Value) :
    (c.setPath path value).entries.get? key = c.entries.get? key := by
  rw [setPath]
  cases named : names path with
  | nil => rfl
  | cons name rest =>
    apply get?_write_of_ne
    rintro rfl
    have undotted := isDotted_of_mem_names (named ▸ List.mem_cons_self)
    simp [undotted] at dotted

theorem dottedParts_of_parts {text : List Char} (parts : ∀ part ∈ text.splitOn '.', part ≠ []) :
    Text.dottedParts text = text.splitOn '.' := by
  rw [Text.dottedParts, List.filter_eq_self]
  intro part member
  simpa using parts part member

theorem names_ne_nil {path : String} (parts : ∀ part ∈ path.toList.splitOn '.', part ≠ []) :
    names path ≠ [] := by
  simp [names, dottedParts_of_parts parts, List.splitOn_ne_nil]

/-- What a path reads whose names lead to the value: a dotted top-level name that is the whole path
comes first. -/
def readBack (c : Context) (path : String) (value : Value) : Value :=
  if isDotted path then (c.entries.get? path).getD value else value

theorem readBack_congr {c d : Context} {path : String}
    (same : isDotted path = true → d.entries.get? path = c.entries.get? path) (value : Value) :
    d.readBack path value = c.readBack path value := by
  rw [readBack, readBack]
  split
  · next dotted => rw [same dotted]
  · rfl

theorem get?_of_follow? {c : Context} {path : String} {value : Value}
    (parts : ∀ part ∈ path.toList.splitOn '.', part ≠ []) (plain : '[' ∉ path.toList)
    (found : c.toValue.follow? (names path) = some value) :
    c.get? path = some (c.readBack path value) := by
  have whole := dottedParts_of_parts parts
  have nonempty : path.toList ≠ [] := by
    intro empty
    exact parts [] (by simp [empty, List.splitOn_nil]) rfl
  rw [get?, readBack]
  by_cases dotted : isDotted path = true
  · rw [if_pos dotted]
    cases stored : c.entries.get? path with
    | some old =>
      rw [Option.getD_some]
      exact find?_of_name nonempty (by rw [String.ofList_toList, stored])
    | none =>
      rw [Option.getD_none]
      apply find?_of_follow? plain (by rw [String.ofList_toList, stored])
      · rw [whole]
        exact List.splitOn_ne_nil '.' path.toList
      · exact found
  · rw [if_neg dotted]
    have undotted : '.' ∉ path.toList := isDotted_eq_false_iff.mp (by simpa using dotted)
    have single : names path = [path] := by
      rw [names, whole, List.splitOn_eq_singleton undotted, List.map_singleton,
        String.ofList_toList]
    rw [single, toValue, Value.follow?_object_cons] at found
    apply find?_of_name nonempty
    rw [String.ofList_toList]
    simpa using found

theorem get?_setPath (c : Context) {path : String} (value : Value)
    (parts : ∀ part ∈ path.toList.splitOn '.', part ≠ []) (plain : '[' ∉ path.toList) :
    (c.setPath path value).get? path = some (c.readBack path value) := by
  rw [get?_of_follow? parts plain (follow?_setPath c value (names_ne_nil parts)),
    readBack_congr fun dotted => get?_setPath_of_isDotted dotted c path value]

/-- A dotted top-level name hides what is written through its parts. -/
theorem not_forall_get?_setPath :
    ¬ ∀ (c : Context) (path : String) (value : Value),
      (∀ part ∈ path.toList.splitOn '.', part ≠ [] ∧ '[' ∉ part ∧ ']' ∉ part) →
        (c.setPath path value).get? path = some value := by
  intro always
  have read := always ⟨[("a.b", .int 1)]⟩ "a.b" (.int 2) (by decide)
  have hidden : ((⟨[("a.b", .int 1)]⟩ : Context).setPath "a.b" (.int 2)).get? "a.b" =
      some (.int 1) := find?_of_name (by decide) rfl
  rw [hidden] at read
  cases read

end Context

end Docscript

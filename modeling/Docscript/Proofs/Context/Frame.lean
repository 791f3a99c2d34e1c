import Docscript.Proofs.Context.Writing
import Docscript.Proofs.Entries

set_option autoImplicit false

namespace Docscript

namespace Context

/-- Rows of names that part: neither of them begins with the other. -/
def Apart (row other : List String) : Prop := ¬ row <+: other ∧ ¬ other <+: row

instance (row other : List String) : Decidable (Apart row other) :=
  inferInstanceAs (Decidable (_ ∧ _))

variable {name next : String} {row other rest below : List String}

theorem Apart.ne_nil (apart : Apart row other) : row ≠ [] ∧ other ≠ [] := by
  constructor
  · rintro rfl
    exact apart.1 List.nil_prefix
  · rintro rfl
    exact apart.2 List.nil_prefix

theorem apart_cons_iff :
    Apart (name :: rest) (next :: below) ↔ name = next → Apart rest below := by
  by_cases same : name = next
  · subst same
    simp [Apart]
  · simp [Apart, List.cons_prefix_cons, same, Ne.symm same]

/-- Below a value that has to give way to an object there is as little as in an empty object. -/
theorem follow?_entriesOf (held : Option Value) (nonempty : row ≠ []) :
    (Value.object (entriesOf held)).follow? row = held.bind (Value.follow? · row) := by
  obtain ⟨name, rest, rfl⟩ := List.exists_cons_of_ne_nil nonempty
  cases held with
  | none => rfl
  | some value => cases value <;> rfl

/-- A write is not felt at rows that part from its own. -/
theorem follow?_write_of_apart (value : Value) (apart : Apart row other) (entries : Entries Value) :
    (Value.object (write value row entries)).follow? other =
      (Value.object entries).follow? other := by
  induction row generalizing other entries with
  | nil => exact absurd rfl apart.ne_nil.1
  | cons name rest ih =>
    obtain ⟨next, below, rfl⟩ := List.exists_cons_of_ne_nil apart.ne_nil.2
    rw [apart_cons_iff] at apart
    rw [Value.follow?_object_cons, Value.follow?_object_cons]
    by_cases same : name = next
    · -- The write goes on below the same name, into an object that may be a new one.
      subst same
      have parted := apart rfl
      obtain ⟨second, others, rfl⟩ := List.exists_cons_of_ne_nil parted.ne_nil.1
      rw [write_cons_cons, Entries.get?_insert_self, Option.bind_some, ih parted,
        follow?_entriesOf _ parted.ne_nil.2]
    · rw [get?_write_of_ne same]

/-- A write adds the first of its names at the end if there is no such entry. -/
theorem keys_write (value : Value) (name : String) (rest : List String) (entries : Entries Value) :
    Entries.keys (write value (name :: rest) entries) =
      if name ∈ entries.keys then entries.keys else entries.keys ++ [name] := by
  cases rest with
  | nil => rw [write, Entries.keys_insert]
  | cons next rest => rw [write_cons_cons, Entries.keys_insert]

theorem write_write (first second : Value) (row : List String) (entries : Entries Value) :
    write second row (write first row entries) = write second row entries := by
  induction row generalizing entries with
  | nil => rfl
  | cons name rest ih =>
    cases rest with
    | nil => exact Entries.insert_insert_self entries name first second
    | cons next rest =>
      have inner : entriesOf (some (.object (write first (next :: rest)
          (entriesOf (entries.get? name))))) =
          write first (next :: rest) (entriesOf (entries.get? name)) := rfl
      rw [write_cons_cons, write_cons_cons, write_cons_cons, Entries.get?_insert_self, inner, ih,
        Entries.insert_insert_self]

/-- A write to a path with some name in it puts the value at the end of its row of names, leaves all
that lies on rows that part from it, adds no top-level name but the first of the row, which comes
last, and hides an earlier write to the same path altogether. -/
theorem setPath_changes_one_branch (c : Context) (path : String) (value later : Value)
    (named : names path ≠ []) :
    let written := c.setPath path value
    written.toValue.follow? (names path) = some value ∧
      (∀ row, Apart (names path) row → written.toValue.follow? row = c.toValue.follow? row) ∧
      written.entries.keys =
        (if (names path).head named ∈ c.entries.keys then c.entries.keys
        else c.entries.keys ++ [(names path).head named]) ∧
      written.setPath path later = c.setPath path later := by
  intro written
  have entries : written.entries = write value (names path) c.entries := rfl
  refine ⟨?_, ?_, ?_, ?_⟩
  · obtain ⟨name, rest, parts⟩ := List.exists_cons_of_ne_nil named
    rw [toValue, entries, parts]
    exact follow?_write value name rest c.entries
  · intro row apart
    rw [toValue, entries, follow?_write_of_apart value apart, toValue]
  · rw [entries, ← keys_write value _ (names path).tail, List.cons_head_tail]
  · rw [setPath, entries, write_write, setPath]

/-- A write through an array, which gives way to an object. -/
theorem setPath_changes_one_branch_through_array :
    let c : Context := ⟨[("a", .array [.int 1]), ("b", .object [("x", .int 2)])]⟩
    names "a..b.c" ≠ [] ∧ Apart (names "a..b.c") ["b", "x"] ∧
      (c.setPath "a..b.c" (.int 3)).toValue.follow? (names "a..b.c") = some (.int 3) ∧
      (c.setPath "a..b.c" (.int 3)).toValue.follow? ["b", "x"] = some (.int 2) := by
  intro c
  have named : names "a..b.c" ≠ [] := by decide
  have apart : Apart (names "a..b.c") ["b", "x"] := by decide
  obtain ⟨felt, frame, -, -⟩ := setPath_changes_one_branch c "a..b.c" (.int 3) .null named
  exact ⟨named, apart, felt, frame _ apart⟩

/-- Writes values to paths, one after the other. -/
def setAll (c : Context) (entries : List (String × Value)) : Context :=
  entries.foldl (fun done entry => done.setPath entry.1 entry.2) c

theorem setAll_append (c : Context) (first second : List (String × Value)) :
    c.setAll (first ++ second) = (c.setAll first).setAll second :=
  List.foldl_append

theorem setAll_cons (c : Context) (path : String) (value : Value)
    (rest : List (String × Value)) :
    c.setAll ((path, value) :: rest) = (c.setPath path value).setAll rest := rfl

/-- Whether a write to the path is not felt at a row of names. -/
def Spares (path : String) (row : List String) : Prop := names path ≠ [] → Apart (names path) row

instance (path : String) (row : List String) : Decidable (Spares path row) :=
  inferInstanceAs (Decidable (_ → _))

theorem follow?_setPath_of_spares {path : String} (spares : Spares path row) (c : Context)
    (value : Value) : (c.setPath path value).toValue.follow? row = c.toValue.follow? row := by
  by_cases named : names path = []
  · rw [setPath, named]
    rfl
  · exact follow?_write_of_apart value (spares named) c.entries

theorem follow?_setAll_of_spares {entries : List (String × Value)}
    (spares : ∀ entry ∈ entries, Spares entry.1 row) (c : Context) :
    (c.setAll entries).toValue.follow? row = c.toValue.follow? row := by
  induction entries generalizing c with
  | nil => rfl
  | cons entry rest ih =>
    rw [List.forall_mem_cons] at spares
    rw [setAll_cons, ih spares.2, follow?_setPath_of_spares spares.1]

theorem get?_setAll_of_isDotted {key : String} (dotted : isDotted key = true) (c : Context)
    (entries : List (String × Value)) :
    (c.setAll entries).entries.get? key = c.entries.get? key := by
  induction entries generalizing c with
  | nil => rfl
  | cons entry rest ih => rw [setAll_cons, ih, get?_setPath_of_isDotted dotted]

/-- What a path reads after several writes, the last one to its own branch being to the path
itself. -/
theorem get?_setAll (c : Context) {path : String} (value : Value)
    (parts : ∀ part ∈ path.toList.splitOn '.', part ≠ []) (plain : '[' ∉ path.toList)
    (before : List (String × Value)) {after : List (String × Value)}
    (spares : ∀ entry ∈ after, Spares entry.1 (names path)) :
    (c.setAll (before ++ (path, value) :: after)).get? path = some (c.readBack path value) := by
  have felt : (c.setAll (before ++ (path, value) :: after)).toValue.follow? (names path) =
      some value := by
    rw [setAll_append, setAll_cons, follow?_setAll_of_spares spares]
    exact follow?_setPath _ value (names_ne_nil parts)
  rw [get?_of_follow? parts plain felt, readBack_congr fun dotted =>
    get?_setAll_of_isDotted dotted c _]

end Context

end Docscript

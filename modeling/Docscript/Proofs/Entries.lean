import Docscript.Entries

set_option autoImplicit false

namespace Docscript

namespace Entries

variable {α : Type} {entries : Entries α} {key other : String} {value added : α}
  {entry : String × α}

theorem get?_eq_some_iff (once : entries.keys.Nodup) :
    entries.get? key = some value ↔ (key, value) ∈ entries := by
  refine ⟨mem_of_get?, fun member => ?_⟩
  obtain ⟨front, rest, rfl⟩ := List.append_of_mem member
  rw [keys, List.map_append, List.map_cons, List.nodup_append] at once
  exact get?_append_cons fun earlier => once.2.2 key earlier key List.mem_cons_self rfl

theorem get?_map {β : Type} (f : α → β) (entries : Entries α) (key : String) :
    get? (entries.map (Prod.map id f)) key = (entries.get? key).map f := by
  induction entries with
  | nil => rfl
  | cons first rest ih =>
    obtain ⟨name, held⟩ := first
    rw [List.map_cons, Prod.map_apply, id, get?, get?]
    split
    · rfl
    · exact ih

theorem keys_map {β : Type} (f : α → β) (entries : Entries α) :
    keys (entries.map (Prod.map id f)) = entries.keys := by
  rw [keys, List.map_map]
  rfl

/-- The entries before the one of a key; all of them if none has the key. -/
def before (entries : Entries α) (key : String) : Entries α :=
  match entries with
  | [] => []
  | (k, value) :: rest => if k = key then [] else (k, value) :: before rest key

/-- The entries after the one of a key; none if no entry has the key. -/
def after (entries : Entries α) (key : String) : Entries α :=
  match entries with
  | [] => []
  | (k, _) :: rest => if k = key then rest else after rest key

theorem eq_of_get? (stored : entries.get? key = some value) :
    entries = entries.before key ++ (key, value) :: entries.after key := by
  induction entries with
  | nil => cases stored
  | cons first rest ih =>
    obtain ⟨name, held⟩ := first
    rw [get?] at stored
    by_cases same : name = key
    · rw [if_pos same, Option.some.injEq] at stored
      simp [before, after, same, stored]
    · rw [if_neg same] at stored
      rw [before, after, if_neg same, if_neg same, List.cons_append, ← ih stored]

theorem before_insert_self (entries : Entries α) (key : String) (value : α) :
    (entries.insert key value).before key = entries.before key := by
  induction entries with
  | nil => simp [insert, before]
  | cons first rest ih =>
    obtain ⟨name, held⟩ := first
    by_cases same : name = key
    · simp [insert, before, same]
    · simp [insert, before, same, ih]

theorem after_insert_self (entries : Entries α) (key : String) (value : α) :
    (entries.insert key value).after key = entries.after key := by
  induction entries with
  | nil => simp [insert, after]
  | cons first rest ih =>
    obtain ⟨name, held⟩ := first
    by_cases same : name = key
    · simp [insert, after, same]
    · simp [insert, after, same, ih]

theorem mem_of_mem_insert (member : entry ∈ entries.insert key value) :
    entry ∈ entries ∨ entry = (key, value) := by
  induction entries with
  | nil => exact .inr (List.mem_singleton.mp member)
  | cons first rest ih =>
    obtain ⟨name, held⟩ := first
    rw [insert] at member
    split at member
    · next same =>
      subst same
      rcases List.mem_cons.mp member with own | later
      · exact .inr own
      · exact .inl (List.mem_cons_of_mem _ later)
    · rcases List.mem_cons.mp member with own | later
      · exact .inl (own ▸ List.mem_cons_self)
      · exact (ih later).imp_left (List.mem_cons_of_mem _)

theorem mem_of_mem_insertAll {additions : Entries α}
    (member : entry ∈ entries.insertAll additions) : entry ∈ entries ∨ entry ∈ additions := by
  induction additions generalizing entries with
  | nil => exact .inl member
  | cons first rest ih =>
    rcases ih member with early | late
    · rcases mem_of_mem_insert early with old | own
      · exact .inl old
      · exact .inr (own ▸ List.mem_cons_self)
    · exact .inr (List.mem_cons_of_mem _ late)

theorem mem_of_mem_before_insert (apart : other ≠ key)
    (member : entry ∈ (entries.insert other added).before key) :
    entry ∈ entries.before key ∨ entry = (other, added) := by
  induction entries with
  | nil =>
    rw [insert, before, if_neg apart] at member
    exact .inr (List.mem_singleton.mp member)
  | cons first rest ih =>
    obtain ⟨name, held⟩ := first
    rw [insert] at member
    by_cases same : name = other
    · subst same
      rw [if_pos rfl, before, if_neg apart] at member
      rw [before, if_neg apart]
      rcases List.mem_cons.mp member with own | later
      · exact .inr own
      · exact .inl (List.mem_cons_of_mem _ later)
    · rw [if_neg same, before] at member
      rw [before]
      by_cases found : name = key
      · rw [if_pos found] at member
        cases member
      · rw [if_neg found] at member ⊢
        rcases List.mem_cons.mp member with own | later
        · exact .inl (own ▸ List.mem_cons_self)
        · exact (ih later).imp_left (List.mem_cons_of_mem _)

theorem mem_of_mem_after_insert (apart : other ≠ key)
    (member : entry ∈ (entries.insert other added).after key) :
    entry ∈ entries.after key ∨ entry = (other, added) := by
  induction entries with
  | nil =>
    rw [insert, after, if_neg apart] at member
    cases member
  | cons first rest ih =>
    obtain ⟨name, held⟩ := first
    rw [insert] at member
    by_cases same : name = other
    · subst same
      rw [if_pos rfl, after, if_neg apart] at member
      rw [after, if_neg apart]
      exact .inl member
    · rw [if_neg same, after] at member
      rw [after]
      by_cases found : name = key
      · rw [if_pos found] at member ⊢
        exact mem_of_mem_insert member
      · rw [if_neg found] at member ⊢
        exact ih member

/-- Entries that are left of a row of entries put one after the other: each key once, with the value
put last. -/
structure Gathers (out row : Entries α) : Prop where
  once : out.keys.Nodup
  last : ∀ key, out.get? key = get? row.reverse key
  whole : row.keys.Nodup → out = row

theorem insert_of_not_mem (fresh : key ∉ entries.keys) :
    entries.insert key value = entries ++ [(key, value)] := by
  induction entries with
  | nil => rfl
  | cons entry rest ih =>
    obtain ⟨name, held⟩ := entry
    rw [keys, List.map_cons, List.mem_cons, not_or] at fresh
    rw [insert, if_neg (Ne.symm fresh.1), List.cons_append, ih fresh.2]

theorem insert_insert_self (entries : Entries α) (key : String) (first second : α) :
    (entries.insert key first).insert key second = entries.insert key second := by
  induction entries with
  | nil => simp [insert]
  | cons entry rest ih =>
    obtain ⟨name, held⟩ := entry
    by_cases same : name = key
    · simp [insert, same]
    · simp [insert, same, ih]

theorem nodup_keys_insert (once : entries.keys.Nodup) :
    (entries.insert key value).keys.Nodup := by
  rw [keys_insert]
  split
  · exact once
  · next fresh =>
    have apart : ∀ other ∈ entries.keys, other ≠ key := by
      rintro other member rfl
      exact fresh member
    rw [List.nodup_append]
    exact ⟨once, by simp, by simpa using apart⟩

theorem insertAll_append (entries first second : Entries α) :
    entries.insertAll (first ++ second) = (entries.insertAll first).insertAll second := by
  rw [insertAll, List.foldl_append]
  rfl

theorem Gathers.insert {out row : Entries α} (gathers : Gathers out row) (key : String)
    (value : α) : Gathers (out.insert key value) (row ++ [(key, value)]) := by
  constructor
  · exact nodup_keys_insert gathers.once
  · intro other
    rw [get?_insert, gathers.last other, List.reverse_append, List.reverse_singleton,
      List.singleton_append, get?]
  · intro apart
    rw [keys, List.map_append, List.nodup_append] at apart
    obtain ⟨earlier, -, disjoint⟩ := apart
    have same := gathers.whole earlier
    have fresh : key ∉ out.keys := by
      intro member
      exact disjoint key (same ▸ member) key (by simp) rfl
    rw [insert_of_not_mem fresh, same]

theorem Gathers.insertAll {out row : Entries α} (gathers : Gathers out row)
    (more : Entries α) : Gathers (out.insertAll more) (row ++ more) := by
  induction more generalizing out row with
  | nil => simpa [Entries.insertAll] using gathers
  | cons entry rest ih =>
    have onward := ih (gathers.insert entry.1 entry.2)
    rwa [List.append_assoc, List.singleton_append] at onward

theorem gathers_insertAll (row : Entries α) : Gathers (insertAll [] row) row := by
  have none : Gathers ([] : Entries α) [] := ⟨List.nodup_nil, fun _ => rfl, fun _ => rfl⟩
  exact none.insertAll row

theorem get?_append (first second : Entries α) (key : String) :
    get? (first ++ second) key = (first.get? key).or (second.get? key) := by
  induction first with
  | nil => rfl
  | cons entry rest ih =>
    obtain ⟨name, held⟩ := entry
    rw [List.cons_append, get?, get?]
    split
    · rfl
    · exact ih

theorem insertAll_cons (entries : Entries α) (name : String) (held : α) (rest : Entries α) :
    entries.insertAll ((name, held) :: rest) = (entries.insert name held).insertAll rest := rfl

/-- Of the values put under a key the last one is found. -/
theorem get?_insertAll (entries additions : Entries α) (key : String) :
    (entries.insertAll additions).get? key =
      (get? additions.reverse key).or (entries.get? key) := by
  induction additions generalizing entries with
  | nil => rfl
  | cons entry rest ih =>
    obtain ⟨name, held⟩ := entry
    rw [insertAll_cons, ih, get?_insert, List.reverse_cons, get?_append, Option.or_assoc, get?,
      get?_nil]
    split <;> rfl

/-- Keys that are there stay in their places, and new ones come after them in their order. -/
theorem keys_insertAll {additions : Entries α} (once : additions.keys.Nodup)
    (entries : Entries α) :
    (entries.insertAll additions).keys =
      entries.keys ++ additions.keys.filter (· ∉ entries.keys) := by
  induction additions generalizing entries with
  | nil => simp [insertAll, keys]
  | cons entry rest ih =>
    obtain ⟨name, held⟩ := entry
    have listed : keys ((name, held) :: rest) = name :: keys rest := rfl
    rw [listed, List.nodup_cons] at once
    rw [insertAll_cons, ih once.2, keys_insert, listed]
    by_cases present : name ∈ entries.keys
    · rw [if_pos present, List.filter_cons_of_neg (by simpa using present)]
    · -- The new name is none of those that follow it.
      have apart : ∀ other ∈ keys rest, other ≠ name := by
        rintro other member rfl
        exact once.1 member
      have same : (keys rest).filter (· ∉ entries.keys ++ [name]) =
          (keys rest).filter (· ∉ entries.keys) := by
        apply List.filter_congr
        intro other member
        simp [apart other member]
      rw [if_neg present, same, List.filter_cons_of_pos (by simpa using present),
        List.append_assoc, List.singleton_append]

theorem mem_keys_insert_self (entries : Entries α) (key : String) (value : α) :
    key ∈ (entries.insert key value).keys := by
  rw [keys_insert]
  split
  · assumption
  · simp

theorem mem_keys_insert (present : key ∈ entries.keys) (other : String) (added : α) :
    key ∈ (entries.insert other added).keys := by
  rw [keys_insert]
  split
  · exact present
  · exact List.mem_append_left _ present

/-- A key that is there keeps its place, so that it does not matter when its value is put. -/
theorem insert_comm_of_mem (present : key ∈ entries.keys) (apart : key ≠ other) (value added : α) :
    (entries.insert other added).insert key value =
      (entries.insert key value).insert other added := by
  induction entries with
  | nil => cases present
  | cons entry rest ih =>
    obtain ⟨name, held⟩ := entry
    by_cases own : name = key
    · subst own
      simp [insert, apart]
    · have later : key ∈ keys rest := by
        rw [keys, List.map_cons, List.mem_cons] at present
        exact present.resolve_left (Ne.symm own)
      by_cases same : name = other
      · simp [insert, same, Ne.symm apart]
      · simp [insert, same, own, ih later]

theorem insertAll_insert_of_mem {additions : Entries α} (present : key ∈ entries.keys)
    (fresh : key ∉ additions.keys) (value : α) :
    (entries.insertAll additions).insert key value =
      (entries.insert key value).insertAll additions := by
  induction additions generalizing entries with
  | nil => rfl
  | cons entry rest ih =>
    obtain ⟨name, held⟩ := entry
    rw [keys, List.map_cons, List.mem_cons, not_or] at fresh
    have onward := ih (mem_keys_insert present name held) fresh.2
    rwa [insert_comm_of_mem present fresh.1] at onward

/-- An entry is put into additions as it is put after them. -/
theorem insertAll_insert {additions : Entries α} (once : additions.keys.Nodup)
    (entries : Entries α) (key : String) (value : α) :
    entries.insertAll (additions.insert key value) =
      (entries.insertAll additions).insert key value := by
  induction additions generalizing entries with
  | nil => rfl
  | cons entry rest ih =>
    obtain ⟨name, held⟩ := entry
    rw [keys, List.map_cons, List.nodup_cons] at once
    rw [insert]
    by_cases same : name = key
    · subst same
      have present := mem_keys_insert_self entries name held
      rw [if_pos rfl, insertAll_cons, insertAll_cons, insertAll_insert_of_mem present once.1,
        insert_insert_self]
    · rw [if_neg same, insertAll_cons, insertAll_cons]
      exact ih once.2 (entries.insert name held)

/-- Entries that are gathered first are put as they are put one by one. -/
theorem insertAll_insertAll {gathered : Entries α} (once : gathered.keys.Nodup)
    (entries row : Entries α) :
    entries.insertAll (gathered.insertAll row) = (entries.insertAll gathered).insertAll row := by
  induction row generalizing gathered with
  | nil => rfl
  | cons entry rest ih =>
    have apart : (gathered.insert entry.1 entry.2).keys.Nodup := nodup_keys_insert once
    have onward := ih apart
    rwa [insertAll_insert once] at onward

end Entries

end Docscript

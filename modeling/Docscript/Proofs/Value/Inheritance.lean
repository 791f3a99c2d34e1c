import Docscript.Proofs.Context.Lookup

set_option autoImplicit false

namespace Docscript

namespace Value

/-- The items of an array and the values of an object have a property that the whole has. -/
structure Inherited (P : Value → Prop) : Prop where
  item : ∀ items : List Value, P (.array items) → ∀ item ∈ items, P item
  entry : ∀ entries : Entries Value, P (.object entries) → ∀ entry ∈ entries, P entry.2

namespace Inherited

variable {P : Value → Prop}

theorem member? (inherited : Inherited P) {value inner : Value} {key : List Char}
    (whole : P value) (found : value.member? key = some inner) : P inner := by
  cases value with
  | object entries => exact inherited.entry entries whole _ (Entries.mem_of_get? found)
  | array items =>
    rw [Value.member?, Option.bind_eq_some_iff] at found
    obtain ⟨position, -, item⟩ := found
    exact inherited.item items whole inner (List.mem_of_getElem? item)
  | _ => cases found

theorem descend? (inherited : Inherited P) {value reached : Value} {keys : List (List Char)}
    (whole : P value) (found : value.descend? keys = some reached) : P reached := by
  induction keys generalizing value with
  | nil =>
    rw [descend?_nil, Option.some.injEq] at found
    exact found ▸ whole
  | cons key rest ih =>
    rw [descend?_cons, Option.bind_eq_some_iff] at found
    obtain ⟨inner, member, below⟩ := found
    exact ih (inherited.member? whole member) below

/-- A path leads into the values of the context; the context itself need not have the property. -/
theorem find? (inherited : Inherited P) {c : Context} {path : List Char} {value : Value}
    (each : ∀ entry ∈ c.entries, P entry.2) (found : c.find? path = some value) : P value := by
  rw [Context.find?] at found
  split at found
  · cases found
  · rcases Option.or_eq_some_iff.mp found with stored | ⟨-, walked⟩
    · exact each _ (Entries.mem_of_get? stored)
    · split at walked
      · cases walked
      · cases walked
      · next steps nonempty _ =>
        obtain ⟨first, rest, rfl⟩ := List.exists_cons_of_ne_nil nonempty
        simp only [List.map_cons, descend?_cons, Option.bind_eq_some_iff] at walked
        obtain ⟨inner, member, below⟩ := walked
        exact inherited.descend? (each _ (Entries.mem_of_get? member)) below

end Inherited

mutual

/-- Whether all keys of objects, at any depth, are of a kind. -/
def allKeys (kind : String → Bool) : Value → Bool
  | array items => allKeysItems kind items
  | object entries => allKeysEntries kind entries
  | null => true
  | bool _ => true
  | number _ => true
  | string _ => true

def allKeysItems (kind : String → Bool) : List Value → Bool
  | [] => true
  | item :: rest => allKeys kind item && allKeysItems kind rest

def allKeysEntries (kind : String → Bool) : List (String × Value) → Bool
  | [] => true
  | (key, value) :: rest => kind key && allKeys kind value && allKeysEntries kind rest

end

variable {kind : String → Bool}

theorem allKeys_array_iff {items : List Value} :
    (array items).allKeys kind = true ↔ ∀ item ∈ items, item.allKeys kind = true := by
  rw [allKeys]
  induction items with
  | nil => simp [allKeysItems]
  | cons item rest ih => rw [allKeysItems, Bool.and_eq_true, ih, List.forall_mem_cons]

theorem allKeys_object_iff {entries : Entries Value} :
    (object entries).allKeys kind = true ↔
      ∀ entry ∈ entries, kind entry.1 = true ∧ entry.2.allKeys kind = true := by
  rw [allKeys]
  induction entries with
  | nil => simp [allKeysEntries]
  | cons entry rest ih =>
    rw [allKeysEntries, Bool.and_eq_true, Bool.and_eq_true, ih, List.forall_mem_cons]

theorem inherited_allKeys (kind : String → Bool) :
    Inherited fun value => value.allKeys kind = true :=
  ⟨fun _ whole => allKeys_array_iff.mp whole,
    fun _ whole entry member => (allKeys_object_iff.mp whole entry member).2⟩

theorem uniqueKeysItems_iff {items : List Value} :
    UniqueKeysItems items ↔ ∀ item ∈ items, item.UniqueKeys := by
  induction items with
  | nil => simp [UniqueKeysItems]
  | cons item rest ih => rw [UniqueKeysItems, ih, List.forall_mem_cons]

theorem uniqueKeysEntries_iff {entries : Entries Value} :
    UniqueKeysEntries entries ↔ ∀ entry ∈ entries, entry.2.UniqueKeys := by
  induction entries with
  | nil => simp [UniqueKeysEntries]
  | cons entry rest ih => rw [UniqueKeysEntries, ih, List.forall_mem_cons]

theorem uniqueKeys_array_iff {items : List Value} :
    (array items).UniqueKeys ↔ ∀ item ∈ items, item.UniqueKeys := by
  rw [UniqueKeys, uniqueKeysItems_iff]

theorem uniqueKeys_object_iff {entries : Entries Value} :
    (object entries).UniqueKeys ↔
      entries.keys.Nodup ∧ ∀ entry ∈ entries, entry.2.UniqueKeys := by
  rw [UniqueKeys, uniqueKeysEntries_iff]

theorem uniqueKeys_of_mem_items {items : List Value} (unique : UniqueKeysItems items)
    {item : Value} (member : item ∈ items) : item.UniqueKeys :=
  uniqueKeysItems_iff.mp unique item member

theorem uniqueKeys_of_mem {entries : Entries Value} (unique : UniqueKeysEntries entries)
    {entry : String × Value} (member : entry ∈ entries) : entry.2.UniqueKeys :=
  uniqueKeysEntries_iff.mp unique entry member

theorem nodup_keys_of_uniqueKeys {entries : Entries Value}
    (unique : (object entries).UniqueKeys) : entries.keys.Nodup :=
  (uniqueKeys_object_iff.mp unique).1

theorem inherited_uniqueKeys : Inherited UniqueKeys :=
  ⟨fun _ unique => uniqueKeys_array_iff.mp unique,
    fun _ unique => (uniqueKeys_object_iff.mp unique).2⟩

theorem uniqueKeys_of_get? {entries : Entries Value} (unique : (object entries).UniqueKeys)
    {key : String} {value : Value} (stored : entries.get? key = some value) :
    value.UniqueKeys :=
  inherited_uniqueKeys.entry entries unique _ (Entries.mem_of_get? stored)

end Value

theorem Context.uniqueKeys_of_find? {c : Context} {path : List Char} {value : Value}
    (unique : c.toValue.UniqueKeys) (found : c.find? path = some value) : value.UniqueKeys :=
  Value.inherited_uniqueKeys.find? (Value.inherited_uniqueKeys.entry c.entries unique) found

end Docscript

set_option autoImplicit false

namespace Docscript

/-- Keyed entries in insertion order. -/
abbrev Entries (α : Type) := List (String × α)

namespace Entries

variable {α β : Type}

def get? (entries : Entries α) (key : String) : Option α :=
  match entries with
  | [] => none
  | (k, value) :: rest => if k = key then some value else get? rest key

/-- Puts a value under a key: in the place of the entry that has the key, else at the end. -/
def insert (entries : Entries α) (key : String) (value : α) : Entries α :=
  match entries with
  | [] => [(key, value)]
  | (k, old) :: rest => if k = key then (k, value) :: rest else (k, old) :: insert rest key value

/-- Takes out the entry with the key and keeps the order of the others. -/
def erase (entries : Entries α) (key : String) : Entries α :=
  match entries with
  | [] => []
  | (k, value) :: rest => if k = key then rest else (k, value) :: erase rest key

def keys (entries : Entries α) : List String := entries.map (·.1)

/-- Inserts entries one after the other. -/
def insertAll (entries additions : Entries α) : Entries α :=
  additions.foldl (fun done entry => done.insert entry.1 entry.2) entries

def contains (entries : Entries α) (key : String) : Bool := (entries.get? key).isSome

@[simp] theorem get?_nil (key : String) : get? ([] : Entries α) key = none := rfl

theorem get?_insert (entries : Entries α) (key other : String) (value : α) :
    (entries.insert key value).get? other =
      if key = other then some value else entries.get? other := by
  induction entries with
  | nil => simp [insert, get?]
  | cons entry rest ih =>
    obtain ⟨k, old⟩ := entry
    by_cases hk : k = key
    · subst hk
      by_cases ho : k = other <;> simp [insert, get?, ho]
    · by_cases ho : k = other
      · subst ho
        simp [insert, get?, hk, Ne.symm hk]
      · simp [insert, get?, hk, ho, ih]

@[simp] theorem get?_insert_self (entries : Entries α) (key : String) (value : α) :
    (entries.insert key value).get? key = some value := by
  simp [get?_insert]

theorem keys_insert (entries : Entries α) (key : String) (value : α) :
    (entries.insert key value).keys =
      if key ∈ entries.keys then entries.keys else entries.keys ++ [key] := by
  induction entries with
  | nil => simp [insert, keys]
  | cons entry rest ih =>
    obtain ⟨k, old⟩ := entry
    by_cases hk : k = key
    · simp [insert, keys, hk]
    · simp only [keys, List.map_cons, insert, hk, if_false, List.mem_cons,
        Ne.symm hk, false_or] at ih ⊢
      rw [ih]
      split <;> simp_all

theorem get?_eq_none_iff {entries : Entries α} {key : String} :
    entries.get? key = none ↔ key ∉ entries.keys := by
  induction entries with
  | nil => simp [keys]
  | cons entry rest ih =>
    obtain ⟨name, value⟩ := entry
    by_cases same : name = key
    · simp [get?, keys, same]
    · simpa [get?, keys, same, Ne.symm same] using ih

theorem get?_append_cons {before after : Entries α} {key : String} {value : α}
    (fresh : key ∉ before.keys) :
    get? (before ++ (key, value) :: after) key = some value := by
  induction before with
  | nil => simp [get?]
  | cons entry rest ih =>
    obtain ⟨name, other⟩ := entry
    rw [keys, List.map_cons, List.mem_cons, not_or] at fresh
    rw [List.cons_append, get?, if_neg (Ne.symm fresh.1)]
    exact ih fresh.2

theorem mem_of_get? {entries : Entries α} {key : String} {value : α}
    (stored : entries.get? key = some value) : (key, value) ∈ entries := by
  induction entries with
  | nil => cases stored
  | cons entry rest ih =>
    obtain ⟨name, other⟩ := entry
    rw [get?] at stored
    split at stored
    · next same =>
      cases stored
      exact same ▸ List.mem_cons_self
    · exact List.mem_cons_of_mem _ (ih stored)

end Entries

end Docscript

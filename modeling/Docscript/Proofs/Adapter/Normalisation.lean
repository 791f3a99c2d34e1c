import Docscript.Adapter.ValidationErrors
import Docscript.Proofs.Entries
import Mathlib.Data.List.Sort
import Mathlib.Data.String.Basic

set_option autoImplicit false

namespace Docscript

namespace ValidationErrors

variable {fields others rest : Entries (List String)} {errors : ValidationErrors}
  {field name message : String} {messages : List String}

/-- Fields in order, each of them once and with a message. -/
structure Normal (fields : Entries (List String)) : Prop where
  ordered : fields.keys.Pairwise (· < ·)
  told : ∀ entry ∈ fields, entry.2 ≠ []

/-- The messages under a field; none if it is not there. -/
def under (fields : Entries (List String)) (field : String) : List String :=
  (fields.get? field).getD []

theorem under_cons (name : String) (messages : List String) (rest : Entries (List String))
    (field : String) :
    under ((name, messages) :: rest) field =
      if name = field then messages else under rest field := by
  rw [under, Entries.get?]
  split <;> rfl

theorem under_eq_nil (absent : field ∉ fields.keys) : under fields field = [] := by
  rw [under, Entries.get?_eq_none_iff.mpr absent, Option.getD_none]

theorem normal_nil : Normal [] := ⟨.nil, nofun⟩

theorem normal_cons_iff :
    Normal ((name, messages) :: rest) ↔
      (∀ key ∈ rest.keys, name < key) ∧ messages ≠ [] ∧ Normal rest := by
  constructor
  · rintro ⟨ordered, told⟩
    have apart := List.pairwise_cons.mp ordered
    have nonempty := List.forall_mem_cons.mp told
    exact ⟨apart.1, nonempty.1, apart.2, nonempty.2⟩
  · rintro ⟨least, nonempty, ordered, told⟩
    exact ⟨List.pairwise_cons.mpr ⟨least, ordered⟩, List.forall_mem_cons.mpr ⟨nonempty, told⟩⟩

theorem Normal.nodup_keys (normal : Normal fields) : fields.keys.Nodup :=
  normal.ordered.imp ne_of_lt

theorem Normal.mem_iff (normal : Normal fields) :
    (field, messages) ∈ fields ↔ under fields field = messages ∧ messages ≠ [] := by
  rw [← Entries.get?_eq_some_iff normal.nodup_keys, under]
  constructor
  · intro stored
    have nonempty := normal.told _ (Entries.mem_of_get? stored)
    rw [stored]
    exact ⟨rfl, nonempty⟩
  · rintro ⟨rfl, nonempty⟩
    cases stored : fields.get? field with
    | none =>
      rw [stored] at nonempty
      exact absurd rfl nonempty
    | some held => rfl

theorem Normal.ext (normal : Normal fields) (other : Normal others)
    (same : ∀ field, under fields field = under others field) : fields = others := by
  let Before (a b : String × List String) : Prop := a.1 < b.1
  have irreflexive : Std.Irrefl Before := ⟨fun a => lt_irrefl a.1⟩
  have antisymmetric : Std.Antisymm Before := ⟨fun _ _ less more => absurd more less.asymm⟩
  have row : fields.Pairwise Before := List.pairwise_map.mp normal.ordered
  have otherRow : others.Pairwise Before := List.pairwise_map.mp other.ordered
  apply row.eq_of_mem_iff otherRow
  rintro ⟨field, messages⟩
  rw [normal.mem_iff, other.mem_iff, same]

theorem mem_keys_insertField_iff {key : String} :
    key ∈ (insertField field message fields).keys ↔ key = field ∨ key ∈ fields.keys := by
  induction fields with
  | nil => simp [insertField, Entries.keys]
  | cons entry rest ih =>
    obtain ⟨name, held⟩ := entry
    rw [insertField]
    split
    · next same => simp [Entries.keys, same]
    · split
      · simp [Entries.keys]
      · simp only [Entries.keys, List.map_cons, List.mem_cons] at ih ⊢
        rw [ih, or_left_comm]

theorem normal_insertField (normal : Normal fields) (field message : String) :
    Normal (insertField field message fields) := by
  induction fields with
  | nil => exact normal_cons_iff.mpr ⟨nofun, List.cons_ne_nil _ _, normal_nil⟩
  | cons entry rest ih =>
    obtain ⟨name, held⟩ := entry
    obtain ⟨least, nonempty, restNormal⟩ := normal_cons_iff.mp normal
    rw [insertField]
    split
    · exact normal_cons_iff.mpr ⟨least, by simp, restNormal⟩
    · next apart =>
      split
      · next less =>
        refine normal_cons_iff.mpr ⟨?_, List.cons_ne_nil _ _, normal⟩
        intro key member
        rcases List.mem_cons.mp member with rfl | later
        · exact less
        · exact less.trans (least key later)
      · next notLess =>
        refine normal_cons_iff.mpr ⟨?_, nonempty, ih restNormal⟩
        intro key member
        rcases mem_keys_insertField_iff.mp member with rfl | old
        · exact lt_of_le_of_ne (not_lt.mp notLess) (Ne.symm apart)
        · exact least key old

theorem under_insertField (normal : Normal fields) (field message other : String) :
    under (insertField field message fields) other =
      under fields other ++ if field = other then [message] else [] := by
  induction fields with
  | nil => rw [insertField, under_cons, under_eq_nil List.not_mem_nil, List.nil_append]
  | cons entry rest ih =>
    obtain ⟨name, held⟩ := entry
    obtain ⟨least, -, restNormal⟩ := normal_cons_iff.mp normal
    rw [insertField]
    split
    · next same =>
      subst same
      rw [under_cons, under_cons]
      split
      · rfl
      · rw [List.append_nil]
    · next apart =>
      split
      · next less =>
        -- The field is before all others, so nothing stands under it.
        have absent : field ∉ Entries.keys ((name, held) :: rest) := by
          intro member
          rcases List.mem_cons.mp member with same | later
          · exact apart same
          · exact lt_irrefl _ (less.trans (least field later))
        rw [under_cons]
        split
        · next same => rw [← same, under_eq_nil absent, List.nil_append]
        · rw [List.append_nil]
      · rw [under_cons, under_cons]
        split
        · next same => rw [if_neg (same ▸ apart), List.append_nil]
        · exact ih restNormal

theorem normal_insertAll (normal : Normal errors.fields) (field : String)
    (messages : List String) : Normal (errors.insertAll field messages).fields := by
  induction messages generalizing errors with
  | nil => exact normal
  | cons message rest ih => exact ih (normal_insertField normal field message)

theorem under_insertAll (normal : Normal errors.fields) (field : String) (messages : List String)
    (other : String) :
    under (errors.insertAll field messages).fields other =
      under errors.fields other ++ if field = other then messages else [] := by
  induction messages generalizing errors with
  | nil => simp [insertAll]
  | cons message rest ih =>
    have step : Normal (errors.insert field message).fields :=
      normal_insertField normal field message
    rw [insertAll, List.foldl_cons, ← insertAll, ih step, insert, under_insertField normal]
    split <;> simp

theorem messageText_of_not_string {value : Value} (other : ∀ text, value ≠ .string text) :
    messageText value = Json.compact value := by
  cases value with
  | string text => exact absurd rfl (other text)
  | null | bool | number | array | object => rfl

theorem messagesOf_eq_nil_iff {value : Value} :
    messagesOf value = [] ↔ value = .null ∨ value = .array [] := by
  cases value with
  | array items => simp [messagesOf]
  | null | bool | number | string | object => simp [messagesOf]

theorem messagesOf_strings (messages : List String) :
    messagesOf (.array (messages.map .string)) = messages := by
  rw [messagesOf, List.map_map]
  exact List.map_id messages

/-- The messages of all entries that have a field as their key. -/
def collected (entries : Entries Value) (field : String) : List String :=
  entries.flatMap fun (name, value) => if name = field then messagesOf value else []

theorem collected_cons (name : String) (value : Value) (rest : Entries Value) (field : String) :
    collected ((name, value) :: rest) field =
      (if name = field then messagesOf value else []) ++ collected rest field := rfl

theorem collected_of_not_mem {entries : Entries Value} (absent : field ∉ entries.keys) :
    collected entries field = [] := by
  apply List.flatMap_eq_nil_iff.mpr
  rintro ⟨name, value⟩ member
  apply if_neg
  rintro rfl
  exact absent (List.mem_map_of_mem member)

theorem collected_of_nodup {entries : Entries Value} (once : entries.keys.Nodup) (field : String) :
    collected entries field = ((entries.get? field).map messagesOf).getD [] := by
  induction entries with
  | nil => rfl
  | cons entry rest ih =>
    obtain ⟨name, value⟩ := entry
    obtain ⟨fresh, restOnce⟩ := List.nodup_cons.mp once
    rw [collected_cons, Entries.get?]
    split
    · next same =>
      subst same
      rw [collected_of_not_mem fresh, List.append_nil]
      rfl
    · rw [List.nil_append, ih restOnce]

theorem normal_and_under_foldl (entries : Entries Value) (normal : Normal errors.fields) :
    let all :=
      entries.foldl (fun done (name, value) => done.insertAll name (messagesOf value)) errors
    Normal all.fields ∧
      ∀ field, under all.fields field = under errors.fields field ++ collected entries field := by
  induction entries generalizing errors with
  | nil => exact ⟨normal, fun _ => (List.append_nil _).symm⟩
  | cons entry rest ih =>
    obtain ⟨name, value⟩ := entry
    obtain ⟨whole, messages⟩ := ih (normal_insertAll normal name (messagesOf value))
    refine ⟨whole, fun field => ?_⟩
    rw [collected_cons, ← List.append_assoc, ← under_insertAll normal]
    exact messages field

theorem normal_ofValue (value : Value) : Normal (ofValue value).fields := by
  cases value with
  | object entries => exact (normal_and_under_foldl entries normal_nil).1
  | null | bool | number | string | array => exact normal_nil

theorem under_ofValue (entries : Entries Value) (field : String) :
    under (ofValue (.object entries)).fields field = collected entries field :=
  (normal_and_under_foldl entries normal_nil).2 field

theorem ofValue_toValue (normal : Normal errors.fields) : ofValue errors.toValue = errors := by
  obtain ⟨fields⟩ := errors
  let written : Entries Value := fields.map (Prod.map id fun messages =>
    .array (messages.map .string))
  have form : toValue ⟨fields⟩ = .object written := rfl
  have once : written.keys.Nodup := by
    rw [Entries.keys_map]
    exact normal.nodup_keys
  rw [form, mk.injEq]
  apply (normal_ofValue _).ext normal
  intro field
  rw [under_ofValue, collected_of_nodup once, Entries.get?_map, Option.map_map, under]
  congr 1
  exact (Option.map_congr fun messages _ => messagesOf_strings messages).trans Option.map_id'

/-- Errors that come about by the operations on them. -/
inductive Built : ValidationErrors → Prop where
  | empty : Built empty
  | ofValue (value : Value) : Built (ofValue value)
  | insert {errors : ValidationErrors} (built : Built errors) (field message : String) :
    Built (errors.insert field message)

theorem Built.normal (built : Built errors) : Normal errors.fields := by
  induction built with
  | empty => exact normal_nil
  | ofValue value => exact normal_ofValue value
  | insert _ field message normal => exact normal_insertField normal field message

/-- Of an object that has each key once, the entries that are neither null nor empty arrays stand
under their keys with their messages, and nothing else does. -/
theorem mem_fields_ofValue_iff {entries : Entries Value} (once : entries.keys.Nodup) :
    (field, messages) ∈ (ofValue (.object entries)).fields ↔
      ∃ value, (field, value) ∈ entries ∧ value ≠ .null ∧ value ≠ .array [] ∧
        messages = messagesOf value := by
  rw [(normal_ofValue _).mem_iff, under_ofValue, collected_of_nodup once]
  constructor
  · rintro ⟨rfl, nonempty⟩
    cases stored : entries.get? field with
    | none =>
      rw [stored] at nonempty
      exact absurd rfl nonempty
    | some value =>
      rw [stored] at nonempty
      have told : ¬ (value = .null ∨ value = .array []) := mt messagesOf_eq_nil_iff.mpr nonempty
      rw [not_or] at told
      exact ⟨value, Entries.mem_of_get? stored, told.1, told.2, rfl⟩
  · rintro ⟨value, member, notNull, notEmpty, rfl⟩
    rw [(Entries.get?_eq_some_iff once).mpr member]
    exact ⟨rfl, mt messagesOf_eq_nil_iff.mp (not_or.mpr ⟨notNull, notEmpty⟩)⟩

/-- Nothing is lost. However errors come about, no field is without a message, and written as a
value they are read back. An object that has each key once is read with the fields whose values are
neither null nor empty arrays, in order, each of them with the messages of its value: strings as
they are and other values as compact text (`messageText_of_not_string`). So a value that was
normalised stays as it is. -/
theorem round_trips_and_normalises :
    (∀ errors, Built errors → (∀ entry ∈ errors.fields, entry.2 ≠ []) ∧
      ofValue errors.toValue = errors) ∧
    (∀ entries : Entries Value, entries.keys.Nodup →
      (ofValue (.object entries)).fields.keys.Pairwise (· < ·) ∧
      ∀ field messages, (field, messages) ∈ (ofValue (.object entries)).fields ↔
        ∃ value, (field, value) ∈ entries ∧ value ≠ .null ∧ value ≠ .array [] ∧
          messages = messagesOf value) ∧
    ∀ value, ofValue (ofValue value).toValue = ofValue value := by
  refine ⟨fun errors built => ⟨built.normal.told, ofValue_toValue built.normal⟩, ?_, ?_⟩
  · intro entries once
    exact ⟨(normal_ofValue _).ordered, fun _ _ => mem_fields_ofValue_iff once⟩
  · exact fun value => ofValue_toValue (normal_ofValue value)

/-- An object with values of all kinds, and a message that is added to what was read from it. -/
theorem round_trips_and_normalises_of_kinds :
    let entries : Entries Value := [("name", .array [.string "required", .null]), ("skip", .null),
      ("age", .int 3), ("none", .array [])]
    let errors := (ofValue (.object entries)).insert "name" "too short"
    errors.fields = [("age", ["3"]), ("name", ["required", "null", "too short"])] ∧
      ofValue errors.toValue = errors ∧
      ("age", ["3"]) ∈ (ofValue (.object entries)).fields ∧
      (∀ messages, ("skip", messages) ∉ (ofValue (.object entries)).fields) ∧
      ofValue (ofValue (.object entries)).toValue = ofValue (.object entries) := by
  intro entries errors
  obtain ⟨reads, normalises, twice⟩ := round_trips_and_normalises
  have once : entries.keys.Nodup := by decide
  have built : Built errors := (Built.ofValue (.object entries)).insert "name" "too short"
  obtain ⟨-, fields⟩ := normalises entries once
  have text : messagesOf (.int 3) = ["3"] := by decide +kernel
  have age : ("age", ["3"]) ∈ (ofValue (.object entries)).fields := by
    rw [fields]
    exact ⟨.int 3, by simp [entries], nofun, nofun, text.symm⟩
  refine ⟨by decide +kernel, (reads errors built).2, age, ?_, twice (.object entries)⟩
  intro messages member
  obtain ⟨value, stored, notNull, -⟩ := (fields "skip" messages).mp member
  simp only [entries, List.mem_cons, Prod.mk.injEq, String.reduceEq, false_and, true_and, false_or,
    or_false, List.not_mem_nil] at stored
  exact notNull stored

end ValidationErrors

end Docscript

import Docscript.Context
import Docscript.Proofs.Text.Parts

set_option autoImplicit false

namespace Docscript

namespace Value

/-- The value at the end of a row of names, each of which is an entry of an object. -/
def follow? : Value → List String → Option Value
  | value, [] => some value
  | .object entries, name :: rest => (Entries.get? entries name).bind (follow? · rest)
  | _, _ :: _ => none

@[simp] theorem follow?_nil (value : Value) : value.follow? [] = some value := by
  cases value <;> rfl

@[simp] theorem follow?_object_cons (entries : Entries Value) (name : String)
    (rest : List String) :
    (object entries).follow? (name :: rest) = (entries.get? name).bind (follow? · rest) := rfl

theorem follow?_cons_eq_some {value reached : Value} {name : String} {rest : List String}
    (found : value.follow? (name :: rest) = some reached) :
    ∃ (entries : Entries Value) (inner : Value), value = object entries ∧
      entries.get? name = some inner ∧ inner.follow? rest = some reached := by
  cases value with
  | object entries =>
    rw [follow?_object_cons, Option.bind_eq_some_iff] at found
    obtain ⟨inner, stored, below⟩ := found
    exact ⟨entries, inner, rfl, stored, below⟩
  | _ => cases found

theorem foldl_member?_none (keys : List (List Char)) :
    keys.foldl (fun (reached : Option Value) key => reached.bind (·.member? key)) none = none := by
  induction keys with
  | nil => rfl
  | cons key rest ih => exact ih

@[simp] theorem descend?_nil (value : Value) : value.descend? [] = some value := rfl

theorem descend?_cons (value : Value) (key : List Char) (rest : List (List Char)) :
    value.descend? (key :: rest) = (value.member? key).bind (·.descend? rest) := by
  unfold descend?
  rw [List.foldl_cons, Option.bind_some]
  cases value.member? key with
  | none => exact foldl_member?_none rest
  | some inner => rfl

theorem descend?_append (value : Value) (first second : List (List Char)) :
    value.descend? (first ++ second) = (value.descend? first).bind (·.descend? second) := by
  induction first generalizing value with
  | nil => rfl
  | cons key rest ih =>
    rw [List.cons_append, descend?_cons, descend?_cons, Option.bind_assoc]
    simp only [ih]

theorem descend?_of_follow? {value reached : Value} {names : List String}
    (found : value.follow? names = some reached) :
    value.descend? (names.map String.toList) = some reached := by
  induction names generalizing value with
  | nil => simpa using found
  | cons name rest ih =>
    obtain ⟨entries, inner, rfl, stored, below⟩ := follow?_cons_eq_some found
    rw [List.map_cons, descend?_cons, member?, String.ofList_toList, stored]
    exact ih below

end Value

namespace Path

theorem segmentsOutside_of_not_mem (pending text : List Char) (undotted : '.' ∉ pending)
    (plain : '[' ∉ text) :
    segmentsOutside pending text =
      some ((Text.dottedParts (pending.reverse ++ text)).map Segment.name) := by
  induction text generalizing pending with
  | nil =>
    have whole : pending.reverse.splitOn '.' = [pending.reverse] :=
      List.splitOn_eq_singleton (by simpa using undotted)
    rw [segmentsOutside, collected, List.append_nil, Text.dottedParts, whole]
    cases pending with
    | nil => rfl
    | cons c rest => simp
  | cons c rest ih =>
    have bracket : c ≠ '[' := fun same => plain (same ▸ List.mem_cons_self)
    have later : '[' ∉ rest := fun member => plain (List.mem_cons_of_mem c member)
    rw [segmentsOutside]
    by_cases dot : c = '.'
    · subst dot
      have cut : (pending.reverse ++ '.' :: rest).splitOn '.' =
          pending.reverse :: rest.splitOn '.' :=
        List.splitOn_append_cons_self_of_not_mem (by simpa using undotted) rest
      rw [if_pos rfl, ih [] (by simp) later, Text.dottedParts, Text.dottedParts, cut]
      cases pending with
      | nil => rfl
      | cons c rest => simp [collected]
    · have longer : '.' ∉ c :: pending := by simp [Ne.symm dot, undotted]
      rw [if_neg dot, if_neg bracket, ih (c :: pending) longer later]
      simp

theorem segments_of_not_mem {path : List Char} (plain : '[' ∉ path) :
    segments path = some ((Text.dottedParts path).map Segment.name) :=
  segmentsOutside_of_not_mem [] path (by simp) plain

end Path

namespace Context

/-- The keys that the segments of a path stand for. -/
def stepKeys (c : Context) (path : List Char) (steps : List Segment) : List (List Char) :=
  steps.map (Segment.key fun inner => if inner.length < path.length then c.find? inner else none)

theorem nonempty_of_find? {c : Context} {path : List Char} {value : Value}
    (found : c.find? path = some value) : path ≠ [] := by
  rintro rfl
  rw [find?] at found
  cases found

/-- A top-level name that is the whole path comes first. -/
theorem find?_of_name {c : Context} {path : List Char} {value : Value} (nonempty : path ≠ [])
    (stored : c.entries.get? (String.ofList path) = some value) : c.find? path = some value := by
  rw [find?, if_neg (by simpa using nonempty), stored, Option.some_or]

theorem get?_of_stored {c : Context} {name : String} {value : Value} (named : name ≠ "")
    (stored : c.entries.get? name = some value) : c.get? name = some value := by
  apply find?_of_name (by simpa using named)
  rwa [String.ofList_toList]

theorem get?_extend_self {name : String} (named : name ≠ "") (c : Context) (value : Value) :
    (c.extend [(name, value)]).get? name = some value :=
  get?_of_stored named (Entries.get?_insert_self c.entries name value)

theorem find?_of_steps {c : Context} {path : List Char} {first : Segment} {rest : List Segment}
    (unnamed : c.entries.get? (String.ofList path) = none)
    (segmented : Path.segments path = some (first :: rest)) :
    c.find? path = c.toValue.descend? (c.stepKeys path (first :: rest)) := by
  have nonempty : path ≠ [] := by
    rintro rfl
    simp [Path.segments, Path.segmentsOutside, Path.collected] at segmented
  rw [find?, if_neg (by simpa using nonempty), unnamed, segmented, Option.none_or]
  rfl

theorem isDotted_eq_false_iff {name : String} : isDotted name = false ↔ '.' ∉ name.toList := by
  simp [isDotted]

theorem isDotted_of_mem_names {path name : String} (member : name ∈ names path) :
    isDotted name = false := by
  obtain ⟨part, inside, rfl⟩ := List.mem_map.mp member
  rw [isDotted_eq_false_iff, String.toList_ofList]
  exact Text.not_mem_of_mem_dottedParts inside

theorem stepKeys_names (c : Context) (path : List Char) (names : List (List Char)) :
    c.stepKeys path (names.map Segment.name) = names := by
  simp [stepKeys, Segment.key, Function.comp_def]

/-- A path without brackets that is no top-level name reaches what its names reach. -/
theorem find?_of_follow? {c : Context} {path : List Char} {value : Value} (plain : '[' ∉ path)
    (unnamed : c.entries.get? (String.ofList path) = none)
    (nonempty : Text.dottedParts path ≠ [])
    (found : c.toValue.follow? ((Text.dottedParts path).map String.ofList) = some value) :
    c.find? path = some value := by
  have segmented := Path.segments_of_not_mem plain
  have reached := Value.descend?_of_follow? found
  obtain ⟨first, rest, parts⟩ := List.exists_cons_of_ne_nil nonempty
  rw [parts, List.map_cons] at segmented
  rw [List.map_map, Function.comp_def] at reached
  simp only [String.toList_ofList, List.map_id'] at reached
  rw [find?_of_steps unnamed segmented, ← List.map_cons, ← parts, stepKeys_names, reached]

end Context

end Docscript

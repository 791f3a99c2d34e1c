import Docscript.Proofs.Template.Keys

set_option autoImplicit false

namespace Docscript

namespace Value

mutual

/-- The strings and the keys in a value, at any depth. -/
def texts : Value → List String
  | string text => [text]
  | array items => textsOfItems items
  | object entries => textsOfEntries entries
  | null => []
  | bool _ => []
  | number _ => []

def textsOfItems : List Value → List String
  | [] => []
  | item :: rest => texts item ++ textsOfItems rest

def textsOfEntries : List (String × Value) → List String
  | [] => []
  | (key, value) :: rest => key :: texts value ++ textsOfEntries rest

end

theorem texts_array (items : List Value) : (array items).texts = items.flatMap texts := by
  rw [texts]
  induction items with
  | nil => rfl
  | cons item rest ih => rw [textsOfItems, ih, List.flatMap_cons]

theorem texts_object (entries : Entries Value) :
    (object entries).texts = entries.flatMap fun entry => entry.1 :: entry.2.texts := by
  rw [texts]
  induction entries with
  | nil => rfl
  | cons entry rest ih => rw [textsOfEntries, ih, List.flatMap_cons]

end Value

namespace Template

/-- Whether the path of each placeholder of a text leads to a value other than null. -/
def Known (c : Context) (text : String) : Prop :=
  ∀ inner, .placeholder inner ∈ pieces text.toList →
    ∃ value, c.expanded.find? (Text.trim inner) = some value ∧ value ≠ .null

variable {options other : CompileOptions} {c : Context}

theorem known_of_single {text : String} {inner : List Char} {value : Value}
    (single : pieces text.toList = [.placeholder inner])
    (found : c.expanded.find? (Text.trim inner) = some value) (present : value ≠ .null) :
    Known c text := by
  intro other member
  rw [single, List.mem_singleton, Piece.placeholder.injEq] at member
  exact ⟨value, member ▸ found, present⟩

theorem known_placeholderOf {name : String} {value : Value} (named : name ≠ "")
    (trimmed : Text.trim name.toList = name.toList)
    (unbraced : ∀ c ∈ name.toList, isBrace c = false) (undotted : c.hasDotted = false)
    (found : c.get? name = some value) (present : value ≠ .null) :
    Known c (placeholderOf name) := by
  have inhabited : name.toList ≠ [] := by simpa using named
  have single : pieces (placeholderOf name).toList = [.placeholder name.toList] := by
    rw [placeholderOf, String.toList_ofList]
    exact pieces_placeholder inhabited unbraced
  have unfolded : c.expanded = c := by
    rw [Context.expanded, undotted, if_neg Bool.false_ne_true]
  exact known_of_single single (by rwa [unfolded, trimmed]) present

theorem interpolate_of_single {text inner : List Char} {value : Value}
    (single : pieces text = [.placeholder inner])
    (found : c.expanded.find? (Text.trim inner) = some value) (present : value ≠ .null)
    (options : CompileOptions) : interpolate options c text = value := by
  rw [interpolate, single]
  simp only [found]
  cases value with
  | null => exact absurd rfl present
  | _ => rfl

theorem fill_of_known {text : String} (known : Known c text) (options other : CompileOptions) :
    fill options c.expanded text.toList = fill other c.expanded text.toList := by
  have each : ∀ piece ∈ pieces text.toList,
      piece.fill options c.expanded = piece.fill other c.expanded := by
    intro piece member
    cases piece with
    | literal c => rfl
    | placeholder inner =>
      obtain ⟨value, found, -⟩ := known inner member
      rw [Piece.fill, Piece.fill, found]
  rw [fill, List.flatMap_def, List.map_congr_left each, ← List.flatMap_def, fill]

theorem compileText_of_known {text : String} (known : Known c text)
    (options other : CompileOptions) : compileText options c text = compileText other c text := by
  have filled : interpolate options c text.toList = interpolate other c text.toList := by
    by_cases single : ∃ inner, pieces text.toList = [.placeholder inner]
    · obtain ⟨inner, single⟩ := single
      obtain ⟨value, found, present⟩ := known inner (by simp [single])
      rw [interpolate_of_single single found present, interpolate_of_single single found present]
    · rw [interpolate_of_not_single single, interpolate_of_not_single single,
        fill_of_known known options other]
  rw [compileText, compileText, filled]

theorem compileKey_congr {key : String}
    (same : compileText options c key = compileText other c key) :
    compileKey options c key = compileKey other c key := by
  rw [compileKey, compileKey]
  by_cases placed : textHasPlaceholder key.toList = true
  · simp only [compileText, placed, if_true] at same
    rw [if_pos placed, if_pos placed, same]
  · rw [if_neg placed, if_neg placed]

/-- A template compiles to the same value where its strings and keys do. -/
theorem compile_congr {template : Value}
    (same : ∀ text ∈ template.texts, compileText options c text = compileText other c text) :
    compile options c template = compile other c template := by
  induction template using Value.induction_parts with
  | null => rfl
  | bool b => rfl
  | number n => rfl
  | string text => exact same text (List.mem_singleton_self text)
  | array items ih =>
    rw [Value.texts_array, List.forall_mem_flatMap] at same
    rw [compile, compile, compileItems_eq, compileItems_eq]
    exact congrArg Value.array (List.map_congr_left fun item member =>
      ih item member (same item member))
  | object entries ih =>
    rw [Value.texts_object, List.forall_mem_flatMap] at same
    have each : ∀ entry ∈ entries,
        (compileKey options c entry.1, compile options c entry.2) =
          (compileKey other c entry.1, compile other c entry.2) := by
      intro entry member
      have own := same entry member
      rw [List.forall_mem_cons] at own
      rw [compileKey_congr own.1, ih entry member own.2]
    rw [compile_object_eq, compile_object_eq, List.map_congr_left each]

end Template

end Docscript

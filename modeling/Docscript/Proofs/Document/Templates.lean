import Docscript.Proofs.Document.Keys
import Docscript.Proofs.Loop.Expansion
import Docscript.Proofs.Value.Inheritance

set_option autoImplicit false

namespace Docscript

def isPlainKey (key : String) : Bool := KeyClass.classify key = .plain

theorem isPlainKey_iff {key : String} :
    isPlainKey key = true ↔ KeyClass.classify key = .plain := by
  rw [isPlainKey, decide_eq_true_iff]

/-- A value in which no key of an object, at any depth, is a condition or a loop. -/
def Value.ControlFree (value : Value) : Prop := value.allKeys isPlainKey = true

namespace Value

theorem controlFree_array_iff {items : List Value} :
    (array items).ControlFree ↔ ∀ item ∈ items, item.ControlFree := allKeys_array_iff

theorem controlFree_object_iff {entries : Entries Value} :
    (object entries).ControlFree ↔
      ∀ entry ∈ entries, KeyClass.classify entry.1 = .plain ∧ entry.2.ControlFree := by
  rw [ControlFree, allKeys_object_iff]
  simp only [isPlainKey_iff, ControlFree]

end Value

namespace KeyClass

theorem parse?_of_classify_eq_loop {key : String} {declared : Loop}
    (kind : classify key = .loop declared) : Loop.parse? key = some declared := by
  rw [classify] at kind
  split at kind
  · cases kind
  · next other _ read =>
    cases kind
    exact read
  · cases kind

theorem isConditionKey_eq_false {key : String} (other : ∀ role, classify key ≠ .condition role) :
    isConditionKey key = false := by
  rw [isConditionKey]
  cases read : ConditionKey.parse? key with
  | none => rfl
  | some role => exact absurd (by rw [classify, read]) (other role)

theorem isConditionKey_eq_false_of_plain {key : String} (plain : classify key = .plain) :
    isConditionKey key = false :=
  isConditionKey_eq_false (by simp [plain])

end KeyClass

namespace Document

open Template (compile compileKey compileItems_eq compile_object_eq)

variable {options : CompileOptions} {c : Context}

theorem soleLoop?_of_mem_plain {entries : List (String × Meaning)} {entry : String × Meaning}
    (member : entry ∈ entries) (plain : KeyClass.classify entry.1 = .plain) :
    soleLoop? entries = none := by
  match entries, member with
  | [(key, body)], member =>
    obtain rfl := List.mem_singleton.mp member
    rw [soleLoop?, plain]
  | _ :: _ :: _, _ => rfl

theorem isBlock_of_mem_plain {entries : List (String × Meaning)} {entry : String × Meaning}
    (member : entry ∈ entries) (plain : KeyClass.classify entry.1 = .plain) :
    isBlock entries = false := by
  have other := KeyClass.isConditionKey_eq_false_of_plain plain
  have mixed : entries.all (isConditionKey ·.1) = false :=
    List.all_eq_false.mpr ⟨entry, member, by simp [other]⟩
  rw [isBlock, mixed, Bool.and_false]

theorem soleLoop?_of_plain {entries : List (String × Meaning)}
    (plain : ∀ entry ∈ entries, KeyClass.classify entry.1 = .plain) :
    soleLoop? entries = none := by
  cases entries with
  | nil => rfl
  | cons entry rest =>
    have first : entry ∈ entry :: rest := List.mem_cons_self
    exact soleLoop?_of_mem_plain first (plain entry first)

theorem isBlock_of_plain {entries : List (String × Meaning)}
    (plain : ∀ entry ∈ entries, KeyClass.classify entry.1 = .plain) :
    isBlock entries = false := by
  cases entries with
  | nil => rfl
  | cons entry rest =>
    have first : entry ∈ entry :: rest := List.mem_cons_self
    exact isBlock_of_mem_plain first (plain entry first)

/-- A block is no loop: a condition key declares none. -/
theorem soleLoop?_of_isBlock {entries : List (String × Meaning)}
    (conditions : isBlock entries = true) : soleLoop? entries = none := by
  match entries, conditions with
  | [(key, body)], conditions =>
    rw [soleLoop?]
    cases kind : KeyClass.classify key with
    | condition role => rfl
    | plain => rfl
    | loop declared =>
      have other : isConditionKey key = false := KeyClass.isConditionKey_eq_false (by simp [kind])
      rw [isBlock, List.all_cons, other] at conditions
      cases conditions
  | _ :: _ :: _, _ => rfl

theorem objectMeaning_of_block {entries : List (String × Meaning)}
    (conditions : isBlock entries = true) :
    objectMeaning options entries c = (do
      let block ← ConditionBlock.ofEntries entries
      choose block c) := by
  rw [objectMeaning, soleLoop?_of_isBlock conditions]
  simp only [conditions, if_true]
  cases ConditionBlock.ofEntries entries <;> rfl

theorem additions_of_plain (text : String → String) {entries : List (String × Value)}
    {value : Value → Value}
    (plain : ∀ entry ∈ entries, KeyClass.classify entry.1 = .plain)
    (each : ∀ entry ∈ entries, meaning options entry.2 c = .ok (.value (value entry.2))) :
    additions text c [] (entryMeanings options entries) =
      .ok (entries.map fun entry => (text entry.1, value entry.2)) := by
  induction entries with
  | nil => rfl
  | cons entry rest ih =>
    rw [List.forall_mem_cons] at plain each
    have noRun : runAdditions c [] = .ok [] := rfl
    rw [entryMeanings, additions, plain.1, noRun, each.1, ih plain.2 each.2]
    rfl

theorem itemMeanings_eq (options : CompileOptions) (items : List Value) :
    itemMeanings options items = items.map (meaning options) := by
  induction items with
  | nil => rfl
  | cons item rest ih => rw [itemMeanings, ih, List.map_cons]

theorem meaning_array (items : List Value) :
    meaning options (.array items) c =
      (arrayItems c (itemMeanings options items)).map fun values => .value (.array values) := rfl

theorem arrayItems_eq {items : List Value} {value : Value → Value}
    (each : ∀ item ∈ items, meaning options item c = .ok (.value (value item))) :
    arrayItems c (itemMeanings options items) = .ok (items.map value) := by
  induction items with
  | nil => rfl
  | cons item rest ih =>
    rw [List.forall_mem_cons] at each
    rw [itemMeanings, arrayItems, each.1, ih each.2]
    rfl

/-- A document without control keys means, in every context, the value it compiles to. -/
theorem meaning_of_controlFree {document : Value} (free : document.ControlFree) (c : Context) :
    meaning options document c = .ok (.value (compile options c document)) := by
  induction document using Value.induction_parts with
  | null => rfl
  | bool b => rfl
  | number n => rfl
  | string text => rfl
  | array items ih =>
    rw [Value.controlFree_array_iff] at free
    have each : ∀ item ∈ items, meaning options item c = .ok (.value (compile options c item)) :=
      fun item member => ih item member (free item member)
    rw [meaning_array, arrayItems_eq each, compile, compileItems_eq]
    rfl
  | object entries ih =>
    rw [Value.controlFree_object_iff] at free
    have plain : ∀ entry ∈ entries, KeyClass.classify entry.1 = .plain :=
      fun entry member => (free entry member).1
    have each : ∀ entry ∈ entries,
        meaning options entry.2 c = .ok (.value (compile options c entry.2)) :=
      fun entry member => ih entry member (free entry member).2
    have rowPlain : ∀ entry ∈ entryMeanings options entries,
        KeyClass.classify entry.1 = .plain := by
      rw [entryMeanings_eq, List.forall_mem_map]
      exact plain
    rw [meaning_object_eq entries (soleLoop?_of_plain rowPlain) (isBlock_of_plain rowPlain),
      additions_of_plain _ plain each, compile_object_eq]
    rfl

/-- A loop is rendered as it is bound: one item for each scope in which the body shows a value. -/
theorem meaning_of_loop {key : String} {declared : Loop}
    (kind : KeyClass.classify key = .loop declared) (body : Value) :
    meaning options (.object [(key, body)]) c = expand declared (meaning options body) c := by
  rw [meaning, objectMeaning, entryMeanings, entryMeanings, soleLoop?, kind]

theorem expand_of_controlFree {declared : Loop} {scopes : Scopes} {body : Value}
    (bound : declared.bind c = .ok scopes) (free : body.ControlFree) :
    expand declared (meaning options body) c =
      .ok (.spread (scopes.toList.map fun scope => compile options scope body)) := by
  have each : ∀ scope ∈ scopes.toList,
      (meaning options body scope).map Rendered.toValue? =
        .ok (some (compile options scope body)) := by
    intro scope _
    rw [meaning_of_controlFree free]
    rfl
  rw [expand, bound]
  simp only [Scopes.collect_eq_map each]
  rfl

/-- Rendering extends compiling. A document without control keys renders to what it compiles to. A
loop around such a document fails as its expansion does, or renders to the templates of all rounds
of the expansion in their order. -/
theorem render_extends_compile (options : CompileOptions) (c : Context) :
    (∀ document : Value, document.ControlFree →
      render options c document = .ok (compile options c document)) ∧
    ∀ (key : String) (declared : Loop) (body : Value),
      KeyClass.classify key = .loop declared → body.ControlFree →
        (∃ error,
          Expansion.ofDeclaration options c (.object [(key, body)]) = .error error ∧
          render options c (.object [(key, body)]) = .error error) ∨
        ∃ expansion templates,
          Expansion.ofDeclaration options c (.object [(key, body)]) = .ok expansion ∧
          render options c (.object [(key, body)]) = .ok (.array templates) ∧
          ∀ limit, (expansion.take limit).1.map Round.template = templates.take limit := by
  constructor
  · intro document free
    rw [render, meaning_of_controlFree free]
    rfl
  · intro key declared body kind free
    have expanded := Expansion.ofDeclaration_of_parse? options c
      (KeyClass.parse?_of_classify_eq_loop kind) body
    rw [render, meaning_of_loop kind]
    cases bound : declared.bind c with
    | error error =>
      rw [bound] at expanded
      refine .inl ⟨error, expanded, ?_⟩
      rw [expand, bound]
      rfl
    | ok scopes =>
      rw [bound] at expanded
      refine .inr ⟨_, scopes.toList.map fun scope => compile options scope body, expanded, ?_, ?_⟩
      · rw [expand_of_controlFree bound free]
        rfl
      · intro limit
        rw [Expansion.take_templates, List.map_take]

/-- Two rounds of a loop around a template with a path, and the template outside of the loop. -/
theorem render_extends_compile_over_items :
    let c : Context := ⟨[("items", .array [.int 7, .string "b"]), ("x", .null)]⟩
    let body : Value := .object [("item", .string "x")]
    body.ControlFree ∧ render {} c body = .ok (compile {} c body) ∧
      KeyClass.classify "for x of items" = .loop (.array "x" "items" none) ∧
      ∃ templates,
        render {} c (.object [("for x of items", body)]) = .ok (.array templates) ∧
        templates.take 2 = [.object [("item", .int 7)], .object [("item", .string "b")]] := by
  intro c body
  have free : body.ControlFree := by
    rw [Value.controlFree_object_iff, List.forall_mem_singleton]
    exact ⟨by decide, rfl⟩
  have kind : KeyClass.classify "for x of items" = .loop (.array "x" "items" none) := by decide
  obtain ⟨plain, loop⟩ := render_extends_compile {} c
  have items : c.get? "items" = some (.array [.int 7, .string "b"]) :=
    Context.find?_of_name (by decide) rfl
  have bound := Expansion.ofDeclaration_array {} body
    (KeyClass.parse?_of_classify_eq_loop kind) items
  have shown : ∀ value : Value, compile {} (c.extend [("x", value)]) body =
      .object [("item", value)] := by
    intro value
    have found := Context.get?_extend_self (by decide : "x" ≠ "") c value
    have unplaced : Template.textHasPlaceholder "x".toList = false :=
      Template.textHasPlaceholder_of_plain (by decide)
    have path : Template.compileText {} (c.extend [("x", value)]) "x" = value :=
      Template.compileText_of_get? unplaced (by decide) found {}
    have unmarked : '$' ∉ "item".toList := by decide
    rw [compile_object_eq, List.map_singleton, compile, path, Template.compileKey_of_plain unmarked]
    rfl
  refine ⟨free, plain body free, kind, ?_⟩
  rcases loop _ _ _ kind free with
    ⟨error, failed, -⟩ | ⟨expansion, templates, started, rendered, taken⟩
  · rw [bound] at failed
    cases failed
  · rw [bound, Except.ok.injEq] at started
    subst started
    refine ⟨templates, rendered, ?_⟩
    rw [← taken, Expansion.take_templates, Scopes.toList_array]
    simp [shown]

end Document

end Docscript

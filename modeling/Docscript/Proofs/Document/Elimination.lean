import Docscript.Proofs.ConditionBlock.Selection
import Docscript.Proofs.Document.Templates
import Docscript.Proofs.Loop.Declaration

/- What a node renders to has keys of two origins: plain keys of the document, and keys of values of
the context. A context that brings in no control keys keeps to that in all scopes of its loops. -/

set_option autoImplicit false

namespace Docscript

/-- A context that brings in no control keys: no name unfolds, and the values have none. -/
structure Context.ControlFree (c : Context) : Prop where
  undotted : c.hasDotted = false
  values : ∀ entry ∈ c.entries, entry.2.ControlFree

namespace Context.ControlFree

variable {c : Context}

theorem expanded (free : c.ControlFree) : c.expanded = c := by
  rw [Context.expanded, free.undotted]
  rfl

theorem find? (free : c.ControlFree) {path : List Char} {value : Value}
    (found : c.find? path = some value) : value.ControlFree :=
  (Value.inherited_allKeys isPlainKey).find? free.values found

theorem extend (free : c.ControlFree) {bound : Entries Value}
    (plain : ∀ entry ∈ bound, isDotted entry.1 = false ∧ entry.2.ControlFree) :
    (c.extend bound).ControlFree := by
  constructor
  · have undotted := free.undotted
    rw [hasDotted, List.any_eq_false] at undotted ⊢
    intro entry member
    rcases Entries.mem_of_mem_insertAll member with old | own
    · exact undotted entry old
    · rw [(plain entry own).1]
      exact Bool.false_ne_true
  · intro entry member
    rcases Entries.mem_of_mem_insertAll member with old | own
    · exact free.values entry old
    · exact (plain entry own).2

end Context.ControlFree

namespace Loop

variable {c : Context} {P : Value → Prop}

/-- A scope binds variables of the loop, each to a number, a text or a part of a value of the
context. -/
theorem exists_bound_of_bind_eq_ok (inherited : Value.Inherited P)
    (number : ∀ n, P (.int n)) (text : ∀ s, P (.string s))
    (each : ∀ entry ∈ c.entries, P entry.2) {declared : Loop} {scopes : Scopes}
    (started : declared.bind c = .ok scopes) :
    ∀ scope ∈ scopes.toList, ∃ bound, scope = c.extend bound ∧
      ∀ entry ∈ bound, entry.1 ∈ declared.boundNames ∧ P entry.2 := by
  intro scope member
  -- Two kinds of loops leave a counter to go through, two kinds a list of items.
  have counter {name : Option String} {first last : Int64}
      (among : scope ∈ Scopes.toList ⟨c, .counter name first last⟩) :
      ∃ bound, scope = c.extend bound ∧
        ∀ entry ∈ bound, entry.1 ∈ name.toList ∧ P entry.2 := by
    rw [Scopes.toList_counter] at among
    obtain ⟨n, -, rfl⟩ := List.mem_map.mp among
    refine ⟨_, rfl, ?_⟩
    cases name <;> simp [Scopes.counted, number]
  have items {name : String} {index : Option String} {values : List Value}
      (parts : ∀ value ∈ values, P value)
      (among : scope ∈ Scopes.toList ⟨c, .items name index 0 values⟩) :
      ∃ bound, scope = c.extend bound ∧
        ∀ entry ∈ bound, entry.1 ∈ name :: index.toList ∧ P entry.2 := by
    rw [Scopes.toList_items] at among
    obtain ⟨⟨value, place⟩, inside, rfl⟩ := List.mem_map.mp among
    have own := parts value (List.fst_mem_of_mem_zipIdx inside)
    refine ⟨_, rfl, ?_⟩
    cases index <;> simp [Scopes.listed, own, number]
  cases declared with
  | times count name =>
    rw [bind] at started
    split at started
    · cases started
    · cases started
      exact counter member
  | range name start stop inclusive =>
    rw [bind] at started
    split at started
    · cases started
      exact counter member
    · cases started
  | array item path index =>
    rw [bind] at started
    split at started
    · cases started
    · next values found =>
      cases started
      exact items (inherited.item values (inherited.find? each found)) member
    · cases started
  | object key path index =>
    rw [bind] at started
    split at started
    · cases started
    · next entries found =>
      cases started
      refine items ?_ member
      rw [List.forall_mem_map]
      exact fun key _ => text key
    · cases started

/-- The scopes of a loop bring in no more control keys than the context around it. -/
theorem controlFree_of_mem_scopes {key : String} {declared : Loop} {scopes : Scopes}
    (free : c.ControlFree) (read : parse? key = some declared)
    (started : declared.bind c = .ok scopes) : ∀ scope ∈ scopes.toList, scope.ControlFree := by
  intro scope member
  obtain ⟨bound, rfl, each⟩ := exists_bound_of_bind_eq_ok (Value.inherited_allKeys isPlainKey)
    (fun _ => rfl) (fun _ => rfl) free.values started scope member
  apply free.extend
  intro entry inside
  obtain ⟨named, own⟩ := each entry inside
  obtain ⟨-, undotted, -⟩ := plain_of_mem_boundNames read entry.1 named
  exact ⟨Context.isDotted_eq_false_iff.mpr undotted, own⟩

end Loop

theorem Value.controlFree_ofText (text : List Char) : (ofText text).ControlFree := by
  rw [ofText]
  split
  · rfl
  · rfl
  · split <;> rfl

namespace Template

variable {options : CompileOptions} {c : Context}

theorem controlFree_interpolate (free : c.ControlFree) (text : List Char) :
    (interpolate options c text).ControlFree := by
  simp only [interpolate, free.expanded]
  split
  · next inner _ =>
    split
    · rfl
    · next found _ => exact free.find? found
    · rfl
    · rfl
  · exact Value.controlFree_ofText _

theorem controlFree_compileText (free : c.ControlFree) (text : String) :
    (compileText options c text).ControlFree := by
  simp only [compileText]
  split
  · exact controlFree_interpolate free _
  · split
    · exact Value.controlFree_ofText _
    · cases found : c.get? text with
      | none => rfl
      | some value => exact free.find? found

end Template

namespace Rendered

/-- No control keys in the value, or in the items that are spread. -/
def ControlFree (rendered : Rendered) : Prop := ∀ value ∈ rendered.toItems, value.ControlFree

theorem ControlFree.toValue? {rendered : Rendered} (free : rendered.ControlFree) {value : Value}
    (shown : rendered.toValue? = some value) : value.ControlFree := by
  cases rendered with
  | value own =>
    cases shown
    exact free value (List.mem_singleton_self value)
  | spread items =>
    cases shown
    exact Value.controlFree_array_iff.mpr free
  | nothing => cases shown

end Rendered

namespace Document

open Template (compileKey textHasPlaceholder)

variable {options : CompileOptions} {c : Context}

/-- A meaning without control keys in every context that brings in none. -/
def Eliminates (body : Meaning) : Prop :=
  ∀ (c : Context) (rendered : Rendered), c.ControlFree → body c = .ok rendered →
    rendered.ControlFree

theorem eliminates_value {value : Context → Value}
    (each : ∀ c : Context, c.ControlFree → (value c).ControlFree) :
    Eliminates fun c => .ok (.value (value c)) := by
  intro c rendered free own
  cases own
  rw [Rendered.ControlFree, Rendered.toItems, List.forall_mem_singleton]
  exact each c free

/-- The rounds of a loop are rendered in scopes that bring in no more than the context. -/
theorem eliminates_expand {key : String} {declared : Loop} {body : Meaning}
    (read : Loop.parse? key = some declared) (own : Eliminates body) :
    Eliminates (expand declared body) := by
  intro c rendered free resolved
  rw [expand] at resolved
  split at resolved
  · cases resolved
  · next scopes started =>
    obtain ⟨values, collected, rfl⟩ := Steps.of_map_eq_ok resolved
    intro value member
    obtain ⟨scope, among, shown⟩ := Scopes.exists_of_collect_eq_ok collected value member
    obtain ⟨inner, rendering, shows⟩ := Steps.of_map_eq_ok shown
    have scopeFree := Loop.controlFree_of_mem_scopes free read started scope among
    exact (own scope inner scopeFree rendering).toValue? shows

theorem eliminates_choose {entries : List (String × Meaning)} {block : ConditionBlock Meaning}
    (each : ∀ entry ∈ entries, Eliminates entry.2)
    (formed : ConditionBlock.ofEntries entries = .ok block) : Eliminates (choose block) := by
  intro c rendered free resolved
  rw [choose] at resolved
  split at resolved
  · next branch selected =>
    obtain ⟨key, member⟩ := ConditionBlock.exists_mem_of_select formed selected
    exact each _ member c rendered free resolved
  · cases resolved
    exact fun _ member => absurd member List.not_mem_nil

theorem controlFree_of_runAdditions {run : List (String × Meaning)} {added : Entries Value}
    (free : c.ControlFree) (each : ∀ entry ∈ run, Eliminates entry.2)
    (resolved : runAdditions c run = .ok added) : (Value.object added).ControlFree := by
  have none : (Value.object []).ControlFree := rfl
  rw [runAdditions] at resolved
  split at resolved
  · cases resolved
    exact none
  · split at resolved
    · cases resolved
    · next block formed =>
      have chosen := eliminates_choose each formed c
      split at resolved
      · cases resolved
      · next entries rendering =>
        cases resolved
        exact (chosen _ free rendering).toValue? rfl
      · cases resolved
        exact none
      · cases resolved

/-- What the entries of an object add comes from branches of condition runs and from plain keys. -/
theorem controlFree_of_additions {entries run : List (String × Meaning)} {added : Entries Value}
    (free : c.ControlFree) (each : ∀ entry ∈ run ++ entries, Eliminates entry.2)
    (resolved : additions (fun key => key) c run entries = .ok added) :
    (Value.object added).ControlFree := by
  induction entries generalizing run added with
  | nil => exact controlFree_of_runAdditions free (by simpa using each) resolved
  | cons entry rest ih =>
    obtain ⟨key, body⟩ := entry
    cases kind : KeyClass.classify key with
    | condition role =>
      rw [additions, kind] at resolved
      exact ih (by simpa using each) resolved
    | loop declared =>
      rw [additions, kind] at resolved
      cases resolved
    | plain =>
      rw [List.forall_mem_append, List.forall_mem_cons] at each
      obtain ⟨inRun, own, inRest⟩ := each
      obtain ⟨branch, rendered, later, selected, rendering, onward, rfl⟩ :=
        of_additions_plain kind resolved
      have branchFree := controlFree_of_runAdditions free inRun selected
      have laterFree := ih inRest onward
      rw [Value.controlFree_object_iff] at branchFree laterFree ⊢
      rw [List.forall_mem_append, List.forall_mem_append]
      refine ⟨⟨branchFree, ?_⟩, laterFree⟩
      intro entry member
      obtain ⟨value, shown, rfl⟩ := Option.map_eq_some_iff.mp (Option.mem_toList.mp member)
      exact ⟨kind, (own c rendered free rendering).toValue? shown⟩

theorem soleLoop?_eq_some {entries : List (String × Meaning)} {declared : Loop} {body : Meaning}
    (sole : soleLoop? entries = some (declared, body)) :
    ∃ key, entries = [(key, body)] ∧ Loop.parse? key = some declared := by
  match entries, sole with
  | [(key, own)], sole =>
    rw [soleLoop?] at sole
    split at sole
    · next kind =>
      cases sole
      exact ⟨key, rfl, KeyClass.parse?_of_classify_eq_loop kind⟩
    · cases sole

/-- The three shapes of an object: a loop, a condition block, entries with plain keys. -/
theorem eliminates_object {entries : List (String × Meaning)}
    (unplaced : ∀ entry ∈ entries, textHasPlaceholder entry.1.toList = false)
    (each : ∀ entry ∈ entries, Eliminates entry.2) :
    Eliminates (objectMeaning options entries) := by
  intro c rendered free resolved
  rw [objectMeaning] at resolved
  cases sole : soleLoop? entries with
  | some loop =>
    obtain ⟨declared, body⟩ := loop
    obtain ⟨key, rfl, read⟩ := soleLoop?_eq_some sole
    rw [sole] at resolved
    rw [List.forall_mem_singleton] at each
    exact eliminates_expand read each c rendered free resolved
  | none =>
    simp only [sole] at resolved
    split at resolved
    · split at resolved
      · cases resolved
      · next block formed => exact eliminates_choose each formed c rendered free resolved
    · have texts : ∀ entry ∈ entries, KeyClass.classify entry.1 = .plain →
          compileKey options c entry.1 = entry.1 := by
        intro entry member _
        rw [compileKey, unplaced entry member]
        rfl
      have fixed : additions (compileKey options c) c [] entries =
          additions (fun key => key) c [] entries := additions_congr texts []
      obtain ⟨out, mixing, rfl⟩ := Steps.of_map_eq_ok resolved
      rw [mixed_eq, fixed] at mixing
      obtain ⟨added, adding, rfl⟩ := Steps.of_map_eq_ok mixing
      have addedFree := controlFree_of_additions free (by simpa using each) adding
      rw [Rendered.ControlFree, Rendered.toItems, List.forall_mem_singleton]
      rw [Value.controlFree_object_iff] at addedFree ⊢
      intro entry member
      rcases Entries.mem_of_mem_insertAll member with none | own
      · cases none
      · exact addedFree entry own

theorem controlFree_of_arrayItems {items : List Meaning} {values : List Value}
    (free : c.ControlFree) (each : ∀ item ∈ items, Eliminates item)
    (resolved : arrayItems c items = .ok values) : ∀ value ∈ values, value.ControlFree := by
  induction items generalizing values with
  | nil =>
    cases resolved
    exact fun _ member => absurd member List.not_mem_nil
  | cons item rest ih =>
    rw [List.forall_mem_cons] at each
    rw [arrayItems] at resolved
    split at resolved
    · cases resolved
    · next rendered rendering =>
      split at resolved
      · cases resolved
      · next others onward =>
        cases resolved
        rw [List.forall_mem_append]
        exact ⟨each.1 c rendered free rendering, ih each.2 onward⟩

/-- A key without placeholders is put as it is written. -/
def isFixedKey (key : String) : Bool := !textHasPlaceholder key.toList

theorem eliminates_meaning {document : Value} (fixed : document.allKeys isFixedKey = true) :
    Eliminates (meaning options document) := by
  induction document using Value.induction_parts with
  | null => exact eliminates_value fun _ _ => rfl
  | bool b => exact eliminates_value fun _ _ => rfl
  | number n => exact eliminates_value fun _ _ => rfl
  | string text => exact eliminates_value fun _ free => Template.controlFree_compileText free text
  | array items ih =>
    rw [Value.allKeys_array_iff] at fixed
    intro c rendered free resolved
    rw [meaning_array] at resolved
    obtain ⟨values, arranged, rfl⟩ := Steps.of_map_eq_ok resolved
    have each : ∀ item ∈ itemMeanings options items, Eliminates item := by
      rw [itemMeanings_eq, List.forall_mem_map]
      exact fun item member => ih item member (fixed item member)
    rw [Rendered.ControlFree, Rendered.toItems, List.forall_mem_singleton]
    exact Value.controlFree_array_iff.mpr (controlFree_of_arrayItems free each arranged)
  | object entries ih =>
    rw [Value.allKeys_object_iff] at fixed
    rw [meaning]
    apply eliminates_object <;> rw [entryMeanings_eq, List.forall_mem_map]
    · intro entry member
      have own := (fixed entry member).1
      rwa [isFixedKey, Bool.not_eq_true'] at own
    · exact fun entry member => ih entry member (fixed entry member).2

/-- Rendering leaves no control keys: in a context that brings in none, a document whose keys have
no placeholders renders to a value in which no key is a condition or a loop. -/
theorem render_controlFree {options : CompileOptions} {c : Context} {document value : Value}
    (undotted : c.hasDotted = false) (values : ∀ entry ∈ c.entries, entry.2.ControlFree)
    (fixed : document.allKeys isFixedKey = true)
    (rendered : render options c document = .ok value) : value.ControlFree := by
  rw [render] at rendered
  obtain ⟨shown, resolved, rfl⟩ := Steps.of_map_eq_ok rendered
  have free := eliminates_meaning fixed c shown ⟨undotted, values⟩ resolved
  cases present : shown.toValue? with
  | none => rfl
  | some own => exact free.toValue? present

theorem meaning_of_true {options : CompileOptions} {c : Context} {key expression : String}
    {test : Expression} (read : ConditionKey.parse? key = some (.ifTrue expression))
    (parsed : Expression.parse expression = .ok test) (holds : test.eval c = true) (body : Value) :
    meaning options (.object [(key, body)]) c = meaning options body c := by
  have formed := ConditionBlock.ofEntries_singleton read (meaning options body)
  have conditions : isBlock [(key, meaning options body)] = true := by
    simp [isBlock, isConditionKey, read]
  rw [parsed] at formed
  rw [meaning, entryMeanings_eq, List.map_singleton, objectMeaning_of_block conditions, formed]
  simp only [Except.map, Bind.bind, Except.bind, choose, ConditionBlock.select_singleton,
    if_pos holds]

/-- A loop in the branch of a condition, over a value with keys of its own. -/
theorem render_controlFree_of_chosen_loop :
    let items : List Value := [.object [("a", .int 1)], .string "b"]
    let c : Context := ⟨[("n", .bool true), ("items", .array items)]⟩
    let document : Value := .object [("if n", .object [("for x of items", .string "x")])]
    c.hasDotted = false ∧ (∀ entry ∈ c.entries, entry.2.ControlFree) ∧
      document.allKeys isFixedKey = true ∧ render {} c document = .ok (.array items) ∧
        (Value.array items).ControlFree := by
  intro items c document
  have undotted : c.hasDotted = false := by decide
  have listed : (Value.array items).ControlFree := rfl
  have values : ∀ entry ∈ c.entries, entry.2.ControlFree :=
    List.forall_mem_cons.mpr ⟨rfl, List.forall_mem_singleton.mpr listed⟩
  have unplaced : ∀ text ∈ ["if n", "for x of items", "x"],
      textHasPlaceholder text.toList = false := by
    have unmarked : ∀ text ∈ ["if n", "for x of items", "x"], '$' ∉ text.toList := by decide
    exact fun text member => Template.textHasPlaceholder_of_plain (unmarked text member)
  have fixed : document.allKeys isFixedKey = true := by
    simp only [document, Value.allKeys, Value.allKeysEntries, isFixedKey,
      unplaced "if n" (by simp), unplaced "for x of items" (by simp)]
    rfl
  have kind : KeyClass.classify "for x of items" = .loop (.array "x" "items" none) := by decide
  have found : c.get? "items" = some (.array items) := Context.find?_of_name (by decide) rfl
  have shown : ∀ value : Value,
      Template.compile {} (c.extend [("x", value)]) (.string "x") = value := by
    intro value
    have item := Context.get?_extend_self (by decide : "x" ≠ "") c value
    rw [Template.compile]
    exact Template.compileText_of_get? (unplaced "x" (by simp)) (by decide) item {}
  have branch : meaning {} (.object [("for x of items", .string "x")]) c = .ok (.spread items) := by
    have free : (Value.string "x").ControlFree := rfl
    rw [meaning_of_loop kind, expand_of_controlFree (Loop.bind_array found "x" none) free,
      Scopes.toList_array]
    simp [shown, items]
  have holds : c.get? "n" = some (.bool true) := Context.find?_of_name (by decide) rfl
  have read : ConditionKey.parse? "if n" = some (.ifTrue "n") := by decide
  have chosen : meaning {} document c = meaning {} (.object [("for x of items", .string "x")]) c :=
    meaning_of_true read rfl (Expression.eval_of_get? holds) _
  have rendered : render {} c document = .ok (.array items) := by
    rw [render, chosen, branch]
    rfl
  exact ⟨undotted, values, fixed, rendered,
    render_controlFree undotted values fixed rendered⟩

end Document

end Docscript

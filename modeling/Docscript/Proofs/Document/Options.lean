import Docscript.Proofs.Document.Splicing
import Docscript.Proofs.Template.Options

set_option autoImplicit false

namespace Docscript

namespace Document

open Template (Known compile compileKey compileText)

variable {options other : CompileOptions} {c : Context}

/-- A document renders without an error. -/
def Renders (options : CompileOptions) (document : Value) (c : Context) : Prop :=
  ∃ rendered, meaning options document c = .ok rendered

/-- A run of condition keys is no error, nor is its branch. -/
def Merges (options : CompileOptions) (run : List (String × Value)) (c : Context) : Prop :=
  ∃ added, runAdditions c (entryMeanings options run) = .ok added

/-- The branch that condition keys select. -/
def selected? (c : Context) (conditions : List (String × Value)) : Option Value :=
  match ConditionBlock.ofEntries conditions with
  | .ok block => block.select c
  | .error _ => none

/-- A run of condition keys ends before a plain key, or with the object. -/
def EndsRun (rest : List (String × Value)) : Prop :=
  ∀ entry ∈ rest.head?, KeyClass.classify entry.1 = .plain

mutual

/-- Rendering a document in a context compiles a text, which is a string or a key of the document,
in a scope. What comes after an error is not rendered, nor is a branch that is not selected. -/
inductive Compiles (options : CompileOptions) : Value → Context → Context → String → Prop
  | text {c : Context} {text : String} : Compiles options (.string text) c c text
  | item {c scope : Context} {text : String} {items before after : List Value} {item : Value}
      (split : items = before ++ item :: after)
      (passed : ∀ earlier ∈ before, Renders options earlier c)
      (within : Compiles options item c scope text) : Compiles options (.array items) c scope text
  | round {c here scope : Context} {text : String} {node body : Value} {declared : Loop}
      {scopes : Scopes} {before after : List Context}
      (loop : loopOf? node = some (declared, body)) (bound : declared.bind c = .ok scopes)
      (split : scopes.toList = before ++ here :: after)
      (passed : ∀ earlier ∈ before, Renders options body earlier)
      (within : Compiles options body here scope text) : Compiles options node c scope text
  | branch {c scope : Context} {text : String} {entries : List (String × Value)} {branch : Value}
      (conditions : isConditionBlock entries = true) (selected : selected? c entries = some branch)
      (within : Compiles options branch c scope text) :
      Compiles options (.object entries) c scope text
  | entries {c scope : Context} {text : String} {entries : List (String × Value)}
      (noLoop : loopOf? (.object entries) = none) (noBlock : isConditionBlock entries = false)
      (within : CompilesAmong options c [] entries scope text) :
      Compiles options (.object entries) c scope text

/-- Rendering the entries of an object that has plain keys, after a run of condition keys, compiles
a text in a scope. -/
inductive CompilesAmong (options : CompileOptions) : Context → List (String × Value) →
    List (String × Value) → Context → String → Prop
  | gathered {c scope : Context} {text key : String} {value : Value} {role : ConditionKey}
      {run rest : List (String × Value)} (kind : KeyClass.classify key = .condition role)
      (within : CompilesAmong options c (run ++ [(key, value)]) rest scope text) :
      CompilesAmong options c run ((key, value) :: rest) scope text
  | branch {c scope : Context} {text : String} {run rest : List (String × Value)} {branch : Value}
      (ends : EndsRun rest) (selected : selected? c run = some branch)
      (within : Compiles options branch c scope text) : CompilesAmong options c run rest scope text
  | key {c : Context} {key : String} {value : Value} {run rest : List (String × Value)}
      (plain : KeyClass.classify key = .plain) (merged : Merges options run c) :
      CompilesAmong options c run ((key, value) :: rest) c key
  | value {c scope : Context} {text key : String} {value : Value} {run rest : List (String × Value)}
      (plain : KeyClass.classify key = .plain) (merged : Merges options run c)
      (within : Compiles options value c scope text) :
      CompilesAmong options c run ((key, value) :: rest) scope text
  | later {c scope : Context} {text key : String} {value : Value} {run rest : List (String × Value)}
      (plain : KeyClass.classify key = .plain) (merged : Merges options run c)
      (passed : Renders options value c) (within : CompilesAmong options c [] rest scope text) :
      CompilesAmong options c run ((key, value) :: rest) scope text

end

/-- What rendering a document compiles, it compiles to the same under other options. -/
def Alike (options other : CompileOptions) (document : Value) (c : Context) : Prop :=
  ∀ scope text, Compiles options document c scope text →
    compileText options scope text = compileText other scope text

theorem exists_mem_of_selected? {conditions : List (String × Value)} {branch : Value}
    (selected : selected? c conditions = some branch) : ∃ key, (key, branch) ∈ conditions := by
  rw [selected?] at selected
  split at selected
  · next block formed => exact ConditionBlock.exists_mem_of_select formed selected
  · cases selected

theorem runAdditions_congr {run : List (String × Value)}
    (same : ∀ branch, selected? c run = some branch →
      meaning options branch c = meaning other branch c) :
    runAdditions c (entryMeanings options run) = runAdditions c (entryMeanings other run) := by
  rw [entryMeanings_eq, entryMeanings_eq, runAdditions, runAdditions, List.isEmpty_map,
    List.isEmpty_map, ConditionBlock.ofEntries_map, ConditionBlock.ofEntries_map]
  cases formed : ConditionBlock.ofEntries run with
  | error error => rfl
  | ok block =>
    have chosen :
        choose (block.map (meaning options)) c = choose (block.map (meaning other)) c := by
      rw [choose, choose, ConditionBlock.select_map, ConditionBlock.select_map]
      cases selected : block.select c with
      | none => rfl
      | some branch => exact same branch (by rw [selected?, formed]; exact selected)
    simp only [Except.map, chosen]

theorem runAdditions_congr_of_compiles {run rest : List (String × Value)} (ends : EndsRun rest)
    (each : ∀ entry ∈ run ++ rest, Alike options other entry.2 c →
      meaning options entry.2 c = meaning other entry.2 c)
    (same : ∀ scope text, CompilesAmong options c run rest scope text →
      compileText options scope text = compileText other scope text) :
    runAdditions c (entryMeanings options run) = runAdditions c (entryMeanings other run) := by
  apply runAdditions_congr
  intro branch selected
  obtain ⟨key, member⟩ := exists_mem_of_selected? selected
  apply each (key, branch) (List.mem_append_left rest member)
  exact fun scope text within => same scope text (.branch ends selected within)

/-- The entries of an object add the same if what is compiled among them is the same. -/
theorem additions_congr_of_compiles {run entries : List (String × Value)}
    (each : ∀ entry ∈ run ++ entries, Alike options other entry.2 c →
      meaning options entry.2 c = meaning other entry.2 c)
    (same : ∀ scope text, CompilesAmong options c run entries scope text →
      compileText options scope text = compileText other scope text) :
    additions (compileKey options c) c (entryMeanings options run)
        (entryMeanings options entries) =
      additions (compileKey other c) c (entryMeanings other run) (entryMeanings other entries) := by
  -- For every run: a condition key joins it, a plain key ends it and begins an empty one.
  induction entries generalizing run with
  | nil =>
    have ends : EndsRun [] := fun _ none => nomatch none
    exact runAdditions_congr_of_compiles ends each same
  | cons entry rest ih =>
    obtain ⟨key, value⟩ := entry
    rw [entryMeanings, entryMeanings, additions, additions]
    cases kind : KeyClass.classify key with
    | condition role =>
      have onward := ih (by rw [List.append_assoc]; exact each)
        fun scope text within => same scope text (.gathered kind within)
      rw [entryMeanings_append, entryMeanings_append] at onward
      exact onward
    | loop declared => rfl
    | plain =>
      have ends : EndsRun ((key, value) :: rest) := by
        intro entry first
        cases first
        exact kind
      simp only [← runAdditions_congr_of_compiles ends each same]
      cases merged : runAdditions c (entryMeanings options run) with
      | error error => rfl
      | ok branch =>
        have put : compileKey options c key = compileKey other c key :=
          Template.compileKey_congr (same c key (.key kind ⟨branch, merged⟩))
        have rendering : meaning options value c = meaning other value c := by
          apply each (key, value) (List.mem_append_right _ List.mem_cons_self)
          exact fun scope text within => same scope text (.value kind ⟨branch, merged⟩ within)
        simp only [← rendering, ← put]
        cases rendered : meaning options value c with
        | error error => rfl
        | ok own =>
          have later := ih
            (fun entry member => each entry
              (List.mem_append_right _ (List.mem_cons_of_mem _ member)))
            fun scope text within =>
              same scope text (.later kind ⟨branch, merged⟩ ⟨own, rendered⟩ within)
          simp only [entryMeanings] at later
          rw [later]

/-- A loop renders to the same if its body does in every scope that is reached. -/
theorem expand_congr {declared : Loop} {body : Value}
    (same : ∀ scopes before here after, declared.bind c = .ok scopes →
      scopes.toList = before ++ here :: after → (∀ earlier ∈ before, Renders options body earlier) →
        meaning options body here = meaning other body here) :
    expand declared (meaning options body) c = expand declared (meaning other body) c := by
  rw [expand, expand]
  cases bound : declared.bind c with
  | error error => rfl
  | ok scopes =>
    have each : (scopes.toList.mapM fun scope =>
          (meaning options body scope).map Rendered.toValue?) =
        scopes.toList.mapM fun scope => (meaning other body scope).map Rendered.toValue? :=
      Steps.mapM_map_congr Rendered.toValue? fun before here after =>
        same scopes before here after bound
    simp only [Scopes.collect_eq, each]

theorem arrayItems_congr {items : List Value}
    (same : ∀ before item after, items = before ++ item :: after →
      (∀ earlier ∈ before, Renders options earlier c) →
        meaning options item c = meaning other item c) :
    arrayItems c (itemMeanings options items) = arrayItems c (itemMeanings other items) := by
  have each : (items.mapM fun item => (meaning options item c).map Rendered.toItems) =
      items.mapM fun item => (meaning other item c).map Rendered.toItems :=
    Steps.mapM_map_congr Rendered.toItems same
  rw [itemMeanings_eq, itemMeanings_eq, arrayItems_eq_flatten, arrayItems_eq_flatten,
    List.mapM_map, List.mapM_map]
  simp only [Function.comp_def, each]

theorem meaning_congr_of_block {entries : List (String × Value)}
    (conditions : isConditionBlock entries = true)
    (same : ∀ branch, selected? c entries = some branch →
      meaning options branch c = meaning other branch c) :
    meaning options (.object entries) c = meaning other (.object entries) c := by
  rw [meaning_of_block conditions, meaning_of_block conditions]
  cases formed : ConditionBlock.ofEntries entries with
  | error error => rfl
  | ok block =>
    simp only [Bind.bind, Except.bind]
    cases selected : block.select c with
    | none => rfl
    | some branch => exact same branch (by rw [selected?, formed]; exact selected)

theorem meaning_string (text : String) :
    meaning options (.string text) c = .ok (.value (compileText options c text)) := rfl

/-- Rendering depends on the options through what it compiles alone. -/
theorem meaning_congr {document : Value} (c : Context) (alike : Alike options other document c) :
    meaning options document c = meaning other document c := by
  -- For all contexts at once: the body of a loop is rendered in the scopes of its rounds.
  induction document using Value.induction_parts generalizing c with
  | null => rfl
  | bool b => rfl
  | number n => rfl
  | string text => rw [meaning_string, meaning_string, alike c text .text]
  | array items ih =>
    rw [meaning_array, meaning_array, arrayItems_congr]
    intro before item after split passed
    have member : item ∈ items := by simp [split]
    exact ih item member c fun scope text within => alike scope text (.item split passed within)
  | object entries ih =>
    cases sole : loopOf? (.object entries) with
    | some loop =>
      obtain ⟨declared, body⟩ := loop
      obtain ⟨key, whole, kind⟩ := loopOf?_eq_some_iff.mp sole
      cases whole
      rw [meaning_of_loop kind, meaning_of_loop kind, expand_congr]
      intro scopes before here after bound split passed
      exact ih (key, body) (List.mem_singleton_self _) here fun scope text within =>
        alike scope text (.round sole bound split passed within)
    | none =>
      cases conditions : isConditionBlock entries with
      | true =>
        apply meaning_congr_of_block conditions
        intro branch selected
        obtain ⟨key, member⟩ := exists_mem_of_selected? selected
        exact ih (key, branch) member c fun scope text within =>
          alike scope text (.branch conditions selected within)
      | false =>
        have noLoop (options : CompileOptions) :
            soleLoop? (entryMeanings options entries) = none := by
          rw [soleLoop?_entryMeanings, sole, Option.map_none]
        have noBlock (options : CompileOptions) :
            isBlock (entryMeanings options entries) = false := by
          rw [isBlock_entryMeanings, conditions]
        have added : additions (compileKey options c) c [] (entryMeanings options entries) =
            additions (compileKey other c) c [] (entryMeanings other entries) :=
          additions_congr_of_compiles (fun entry member => ih entry member c)
            fun scope text within => alike scope text (.entries sole conditions within)
        rw [meaning_object_eq entries (noLoop options) (noBlock options),
          meaning_object_eq entries (noLoop other) (noBlock other), added]

variable {scope : Context} {text : String}

theorem Compiles.of_string {own : String} (compiles : Compiles options (.string own) c scope text) :
    scope = c ∧ text = own := by
  cases compiles with
  | text => exact ⟨rfl, rfl⟩
  | round loop => cases loop

theorem Compiles.of_block {entries : List (String × Value)}
    (compiles : Compiles options (.object entries) c scope text)
    (conditions : isConditionBlock entries = true) :
    ∃ branch, selected? c entries = some branch ∧ Compiles options branch c scope text := by
  cases compiles with
  | round loop =>
    rw [isConditionBlock_of_loop loop] at conditions
    cases conditions
  | branch _ selected within => exact ⟨_, selected, within⟩
  | entries _ noBlock =>
    rw [noBlock] at conditions
    cases conditions

theorem Compiles.of_loop {node body : Value} {declared : Loop}
    (compiles : Compiles options node c scope text) (loop : loopOf? node = some (declared, body)) :
    ∃ scopes here, declared.bind c = .ok scopes ∧ here ∈ scopes.toList ∧
      Compiles options body here scope text := by
  cases compiles with
  | text => cases loop
  | item => cases loop
  | round other bound split _ within =>
    rw [loop] at other
    cases other
    exact ⟨_, _, bound, by simp [split], within⟩
  | branch conditions =>
    rw [isConditionBlock_of_loop loop] at conditions
    cases conditions
  | entries noLoop =>
    rw [loop] at noLoop
    cases noLoop

theorem Compiles.of_array_loop {node body : Value} {name path : String} {items : List Value}
    (compiles : Compiles options node c scope text)
    (loop : loopOf? node = some (.array name path none, body))
    (found : c.get? path = some (.array items)) :
    ∃ item ∈ items, Compiles options body (c.extend [(name, item)]) scope text := by
  obtain ⟨scopes, here, bound, member, within⟩ := compiles.of_loop loop
  rw [Loop.bind_array found] at bound
  cases bound
  rw [Scopes.toList_array, List.mem_map] at member
  obtain ⟨item, inside, rfl⟩ := member
  exact ⟨item, inside, within⟩

theorem selected?_ifElse {key name : String} {value : Value}
    (read : ConditionKey.parse? key = some (.ifTrue name))
    (parsed : Expression.parse name = .ok (.truthy (.word name)))
    (found : c.get? name = some value) (body other : Value) :
    selected? c [(key, body), ("else", other)] = some (if value.truthy then body else other) := by
  rw [selected?, ConditionBlock.ofEntries_ifElse read, parsed]
  simp only [Except.map, ConditionBlock.select_ifElse, Expression.eval_of_get? found]

/-- The options matter for placeholders whose path is unknown or leads to null, and for nothing
else. A template in which the path of every placeholder, those of keys included, leads to another
value compiles to the same value under all options. A document for which that holds of each string
and key that is compiled under some options, in the scope in which it is compiled, renders to the
same value under all options, or fails with the same error. -/
theorem options_agree (options other : CompileOptions) (c : Context) :
    (∀ template : Value, (∀ text ∈ template.texts, Known c text) →
      compile options c template = compile other c template) ∧
    ∀ document : Value,
      (∀ scope text, Compiles options document c scope text → Known scope text) →
        render options c document = render other c document := by
  constructor
  · intro template known
    apply Template.compile_congr
    exact fun text member => Template.compileText_of_known (known text member) options other
  · intro document known
    have same : meaning options document c = meaning other document c := by
      apply meaning_congr
      exact fun scope text compiles =>
        Template.compileText_of_known (known scope text compiles) options other
    rw [render, render, same]

/-- A template with a placeholder in a key, and a loop around a block one branch of which is not
selected in any round, so that its placeholder, whose path is unknown, is not compiled. -/
theorem options_agree_beside_unselected :
    let c : Context := ⟨[("xs", .array [.bool true, .string "y"]), ("a", .int 1)]⟩
    let template : Value := .object [("${a}", .array [.string "${a}"])]
    let chosen : Value := .string "${x}"
    let passed : Value := .string "${gone}"
    let block : Value := .object [("if x", chosen), ("else", passed)]
    let document : Value := .object [("for x of xs", block)]
    (∀ text ∈ template.texts, Known c text) ∧
      compile ⟨true⟩ c template = compile ⟨false⟩ c template ∧
      (∀ scope text, Compiles ⟨true⟩ document c scope text → Known scope text) ∧
      render ⟨true⟩ c document = render ⟨false⟩ c document := by
  intro c template chosen passed block document
  obtain ⟨templates, documents⟩ := options_agree ⟨true⟩ ⟨false⟩ c
  have own : Known c (Template.placeholderOf "a") :=
    Template.known_placeholderOf (by decide) (by decide) (List.forall_mem_singleton.mpr rfl) rfl
      (Context.get?_of_stored (by decide) rfl) (by simp [Value.int])
  have known : ∀ text ∈ template.texts, Known c text :=
    List.forall_mem_cons.mpr ⟨own, List.forall_mem_singleton.mpr own⟩
  have reached : ∀ scope text, Compiles ⟨true⟩ document c scope text → Known scope text := by
    intro scope text compiles
    have loop : loopOf? document = some (.array "x" "xs" none, block) :=
      loopOf?_eq_some_iff.mpr ⟨_, rfl, by decide⟩
    obtain ⟨item, member, within⟩ :=
      compiles.of_array_loop loop (Context.get?_of_stored (by decide) rfl)
    have holds : item.truthy = true ∧ item ≠ .null := by
      rw [List.mem_cons, List.mem_singleton] at member
      rcases member with rfl | rfl
      · exact ⟨rfl, Value.noConfusion⟩
      · exact ⟨rfl, Value.noConfusion⟩
    -- The item is true, so that the first branch is selected and its placeholder leads to the item.
    have found := Context.get?_extend_self (by decide : "x" ≠ "") c item
    obtain ⟨branch, selected, inner⟩ := within.of_block (by decide)
    rw [selected?_ifElse (by decide) rfl found, if_pos holds.1] at selected
    cases selected
    obtain ⟨rfl, rfl⟩ := inner.of_string
    have stored : (c.extend [("x", item)]).entries = c.entries ++ [("x", item)] := rfl
    have calm : (c.extend [("x", item)]).hasDotted = false := by
      simp [Context.hasDotted, stored, c, Context.isDotted]
    have placed : Known (c.extend [("x", item)]) (Template.placeholderOf "x") :=
      Template.known_placeholderOf (by decide) (by decide) (List.forall_mem_singleton.mpr rfl) calm
        found holds.2
    exact placed
  exact ⟨known, templates template known, reached, documents document reached⟩

end Document

end Docscript

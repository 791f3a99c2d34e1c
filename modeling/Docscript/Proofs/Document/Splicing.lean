import Docscript.Proofs.ConditionBlock.Selection
import Docscript.Proofs.Document.Templates

/- An item is followed through the selected branches of condition blocks to the node at which they
end. A loop there is taken into the array round by round, a block without a selected branch leaves
the item out, and any other node is one item. -/

set_option autoImplicit false

namespace Docscript

namespace Document

variable {options : CompileOptions} {c : Context}

/-- Whether an object consists of condition keys alone. -/
def isConditionBlock (entries : List (String × Value)) : Bool :=
  !entries.isEmpty && entries.all (isConditionKey ·.1)

mutual

/-- The node at the end of a chain of selected branches, if the chain does not end in a block that
selects none. The ends of the branches are those of a block of the same shape. -/
def ending (c : Context) : Value → Except Error (Option Value)
  | .object entries =>
    if isConditionBlock entries then do
      let block ← ConditionBlock.ofEntries (entryEndings c entries)
      (block.select c).getD (.ok none)
    else .ok (some (.object entries))
  | node => .ok (some node)

def entryEndings (c : Context) :
    List (String × Value) → List (String × Except Error (Option Value))
  | [] => []
  | (key, node) :: rest => (key, ending c node) :: entryEndings c rest

end

/-- The loop, with its body, that a node consists of. -/
def loopOf? : Value → Option (Loop × Value)
  | .object [(key, body)] =>
    match KeyClass.classify key with
    | .loop declared => some (declared, body)
    | _ => none
  | _ => none

/-- One round of a loop, which has no value if the chain of its body ends without a node. -/
def iteration (options : CompileOptions) (body : Value) (scope : Context) :
    Except Error (Option Value) := do
  match ← ending scope body with
  | some _ => (render options scope body).map some
  | none => return none

/-- The values of all rounds of a loop that have one. -/
def rounds (options : CompileOptions) (c : Context) (declared : Loop) (body : Value) :
    Except Error (List Value) := do
  let scopes ← declared.bind c
  let found ← scopes.toList.mapM (iteration options body)
  return found.reduceOption

/-- What an item adds to the array around it. -/
def contribution (options : CompileOptions) (c : Context) (item : Value) :
    Except Error (List Value) := do
  match ← ending c item with
  | none => return []
  | some last =>
    match loopOf? last with
    | some (declared, body) => rounds options c declared body
    | none => return [← render options c last]

theorem entryEndings_eq (c : Context) (entries : List (String × Value)) :
    entryEndings c entries = entries.map fun entry => (entry.1, ending c entry.2) := by
  induction entries with
  | nil => rfl
  | cons entry rest ih => rw [entryEndings, ih, List.map_cons]

theorem ending_of_block {entries : List (String × Value)}
    (conditions : isConditionBlock entries = true) :
    ending c (.object entries) = (do
      let block ← ConditionBlock.ofEntries entries
      match block.select c with
      | some branch => ending c branch
      | none => return none) := by
  rw [ending, if_pos conditions, entryEndings_eq, ConditionBlock.ofEntries_map]
  cases ConditionBlock.ofEntries entries with
  | error error => rfl
  | ok block =>
    simp only [Except.map, Bind.bind, Except.bind, ConditionBlock.select_map]
    cases block.select c <;> rfl

/-- A chain ends where it has ended. -/
theorem ending_of_ending {node last : Value} (ended : ending c node = .ok (some last)) :
    ending c last = .ok (some last) := by
  induction node using Value.induction_parts with
  | null | bool | number | string | array =>
    cases ended
    rfl
  | object entries ih =>
    by_cases conditions : isConditionBlock entries = true
    · rw [ending_of_block conditions] at ended
      obtain ⟨block, formed, afterBlock⟩ := Steps.of_bind_eq_ok ended
      cases selected : block.select c with
      | none =>
        rw [selected] at afterBlock
        cases afterBlock
      | some branch =>
        rw [selected] at afterBlock
        obtain ⟨key, member⟩ := ConditionBlock.exists_mem_of_select formed selected
        exact ih _ member afterBlock
    · have own := ended
      rw [ending, if_neg conditions] at own
      cases own
      exact ended

/-- What the end of a chain renders to. -/
def finish (options : CompileOptions) (c : Context) : Option Value → Except Error Rendered
  | none => .ok .nothing
  | some last =>
    match loopOf? last with
    | some (declared, body) => (rounds options c declared body).map .spread
    | none => (render options c last).map .value

theorem isBlock_entryMeanings (entries : List (String × Value)) :
    isBlock (entryMeanings options entries) = isConditionBlock entries := by
  rw [isBlock, isConditionBlock, entryMeanings_eq, List.isEmpty_map, List.all_map]
  rfl

theorem soleLoop?_entryMeanings (entries : List (String × Value)) :
    soleLoop? (entryMeanings options entries) =
      (loopOf? (.object entries)).map fun loop => (loop.1, meaning options loop.2) := by
  match entries with
  | [] => rfl
  | [(key, body)] =>
    rw [entryMeanings, entryMeanings, soleLoop?, loopOf?]
    cases KeyClass.classify key <;> rfl
  | _ :: _ :: _ => rfl

theorem loopOf?_eq_some_iff {node : Value} {declared : Loop} {body : Value} :
    loopOf? node = some (declared, body) ↔
      ∃ key, node = .object [(key, body)] ∧ KeyClass.classify key = .loop declared := by
  constructor
  · intro sole
    match node, sole with
    | .object [(key, own)], sole =>
      rw [loopOf?] at sole
      split at sole
      · next kind =>
        cases sole
        exact ⟨key, rfl, kind⟩
      · cases sole
  · rintro ⟨key, rfl, kind⟩
    rw [loopOf?, kind]

theorem isConditionBlock_of_loop {entries : List (String × Value)} {loop : Loop × Value}
    (sole : loopOf? (.object entries) = some loop) : isConditionBlock entries = false := by
  obtain ⟨key, whole, kind⟩ := loopOf?_eq_some_iff.mp sole
  cases whole
  have other : isConditionKey key = false := KeyClass.isConditionKey_eq_false (by simp [kind])
  rw [isConditionBlock, List.all_cons, other]
  rfl

theorem meaning_of_block {entries : List (String × Value)}
    (conditions : isConditionBlock entries = true) :
    meaning options (.object entries) c = (do
      let block ← ConditionBlock.ofEntries entries
      match block.select c with
      | some branch => meaning options branch c
      | none => return .nothing) := by
  rw [← isBlock_entryMeanings] at conditions
  rw [meaning, objectMeaning_of_block conditions, entryMeanings_eq, ConditionBlock.ofEntries_map]
  cases ConditionBlock.ofEntries entries with
  | error error => rfl
  | ok block =>
    simp only [Except.map, Bind.bind, Except.bind, choose, ConditionBlock.select_map]
    cases block.select c <;> rfl

theorem finish_of_loop {last body : Value} {declared : Loop}
    (sole : loopOf? last = some (declared, body)) :
    finish options c (some last) = (rounds options c declared body).map .spread := by
  rw [finish, sole]

/-- A node that renders to one value, and is no loop, ends a chain with it. -/
theorem meaning_of_value {node : Value} (noLoop : loopOf? node = none)
    {value : Except Error Value} (rendered : meaning options node c = value.map .value) :
    meaning options node c = finish options c (some node) := by
  rw [finish, noLoop]
  simp only [render, rendered]
  cases value <;> rfl

/-- Rounds that are followed to the ends of their chains are rounds that are rendered. -/
theorem iteration_eq {body : Value} {scope : Context}
    (followed : meaning options body scope = ending scope body >>= finish options scope) :
    (meaning options body scope).map Rendered.toValue? = iteration options body scope := by
  rw [iteration, render, followed]
  cases ending scope body with
  | error error => rfl
  | ok found =>
    cases found with
    | none => rfl
    | some last =>
      simp only [Bind.bind, Except.bind]
      cases sole : loopOf? last with
      | some loop =>
        obtain ⟨declared, inner⟩ := loop
        rw [finish_of_loop sole]
        cases rounds options scope declared inner <;> rfl
      | none =>
        rw [finish, sole]
        simp only []
        cases render options scope last <;> rfl

theorem expand_eq {declared : Loop} {body : Value}
    (followed : ∀ scope : Context,
      meaning options body scope = ending scope body >>= finish options scope) :
    expand declared (meaning options body) c =
      (rounds options c declared body).map .spread := by
  rw [expand, rounds]
  cases declared.bind c with
  | error error => rfl
  | ok scopes =>
    have each : (fun scope => (meaning options body scope).map Rendered.toValue?) =
        iteration options body := funext fun scope => iteration_eq (followed scope)
    simp only [each, Scopes.collect_eq, Bind.bind, Except.bind]
    cases scopes.toList.mapM (iteration options body) <;> rfl

/-- A node renders to what the end of its chain renders to. -/
theorem meaning_eq (node : Value) (c : Context) :
    meaning options node c = ending c node >>= finish options c := by
  -- For all contexts at once: the body of a loop is followed in the scopes of its rounds.
  induction node using Value.induction_parts generalizing c with
  | null => rfl
  | bool b => rfl
  | number n => rfl
  | string text => rfl
  | array items ih =>
    have one : meaning options (.array items) c =
        ((arrayItems c (itemMeanings options items)).map Value.array).map .value := by
      rw [meaning_array]
      cases arrayItems c (itemMeanings options items) <;> rfl
    exact meaning_of_value rfl one
  | object entries ih =>
    by_cases conditions : isConditionBlock entries = true
    · rw [meaning_of_block conditions, ending_of_block conditions, bind_assoc]
      cases formed : ConditionBlock.ofEntries entries with
      | error error => rfl
      | ok block =>
        simp only [Bind.bind, Except.bind]
        cases selected : block.select c with
        | none => rfl
        | some branch =>
          obtain ⟨key, member⟩ := ConditionBlock.exists_mem_of_select formed selected
          exact ih _ member c
    · have ended : ending c (.object entries) = .ok (some (.object entries)) := by
        rw [ending, if_neg conditions]
      rw [ended]
      cases sole : loopOf? (.object entries) with
      | some loop =>
        obtain ⟨declared, body⟩ := loop
        obtain ⟨key, whole, kind⟩ := loopOf?_eq_some_iff.mp sole
        cases whole
        have followed : ∀ scope : Context,
            meaning options body scope = ending scope body >>= finish options scope :=
          fun scope => ih (key, body) (List.mem_singleton_self _) scope
        rw [meaning_of_loop kind, expand_eq followed]
        simp only [Bind.bind, Except.bind, finish, sole]
      | none =>
        let meanings := entryMeanings options entries
        have noLoop : soleLoop? meanings = none := by
          rw [soleLoop?_entryMeanings, sole, Option.map_none]
        have noBlock : isBlock meanings = false := by
          rw [isBlock_entryMeanings, Bool.eq_false_iff.mpr conditions]
        have one : meaning options (.object entries) c =
            ((mixed options c [] [] meanings).map Value.object).map .value := by
          rw [meaning, objectMeaning, noLoop, noBlock]
          cases mixed options c [] [] meanings <;> rfl
        exact meaning_of_value sole one

theorem toItems_of_meaning (item : Value) :
    (meaning options item c).map Rendered.toItems = contribution options c item := by
  rw [meaning_eq, contribution]
  cases ending c item with
  | error error => rfl
  | ok found =>
    cases found with
    | none => rfl
    | some last =>
      simp only [Bind.bind, Except.bind, finish]
      cases loopOf? last with
      | some loop =>
        obtain ⟨declared, body⟩ := loop
        simp only []
        cases rounds options c declared body <;> rfl
      | none =>
        simp only []
        cases render options c last <;> rfl

/-- An array takes in the items of what is rendered one after the other. -/
theorem arrayItems_eq_flatten (items : List Meaning) :
    arrayItems c items =
      (items.mapM fun item : Meaning => (item c).map Rendered.toItems).map List.flatten := by
  induction items with
  | nil => rfl
  | cons item rest ih =>
    rw [arrayItems, ih, List.mapM_cons]
    cases item c with
    | error error => rfl
    | ok rendered => cases rest.mapM fun item : Meaning => (item c).map Rendered.toItems <;> rfl

/-- An array renders to what its items add. -/
theorem render_array (items : List Value) :
    render options c (.array items) =
      (items.mapM (contribution options c)).map fun parts => .array parts.flatten := by
  have each : (fun item => (meaning options item c).map Rendered.toItems) =
      contribution options c := funext toItems_of_meaning
  rw [render, meaning_array, itemMeanings_eq, arrayItems_eq_flatten, List.mapM_map]
  simp only [Function.comp_def, each]
  cases items.mapM (contribution options c) <;> rfl

theorem render_loop {key : String} {declared : Loop}
    (kind : KeyClass.classify key = .loop declared) (body : Value) :
    render options c (.object [(key, body)]) = (rounds options c declared body).map .array := by
  have followed : ∀ scope : Context,
      meaning options body scope = ending scope body >>= finish options scope := meaning_eq body
  rw [render, meaning_of_loop kind, expand_eq followed]
  cases rounds options c declared body <;> rfl

theorem ending_of_loop {key : String} {declared : Loop}
    (kind : KeyClass.classify key = .loop declared) (body : Value) :
    ending c (.object [(key, body)]) = .ok (some (.object [(key, body)])) := by
  have noBlock : isConditionBlock [(key, body)] = false :=
    isConditionBlock_of_loop (loopOf?_eq_some_iff.mpr ⟨key, rfl, kind⟩)
  rw [ending, noBlock]
  rfl

theorem rounds_of_loop {key : String} {inner : Loop}
    (kind : KeyClass.classify key = .loop inner) (declared : Loop) (body : Value) :
    rounds options c declared (.object [(key, body)]) = (do
      let scopes ← declared.bind c
      scopes.toList.mapM fun scope => (rounds options scope inner body).map .array) := by
  have each : iteration options (.object [(key, body)]) = fun scope =>
      ((rounds options scope inner body).map Value.array).map some := by
    funext scope
    rw [iteration, ending_of_loop kind, render_loop kind]
    rfl
  rw [rounds]
  cases declared.bind c with
  | error error => rfl
  | ok scopes =>
    simp only [each, Bind.bind, Except.bind, Steps.mapM_map]
    cases scopes.toList.mapM fun scope => rounds options scope inner body with
    | error error => rfl
    | ok found => simp [Except.map, Pure.pure, Except.pure, List.reduceOption, List.filterMap_map]

theorem contribution_of_loop {item body : Value} {key : String} {declared : Loop}
    (ended : ending c item = .ok (some (.object [(key, body)])))
    (kind : KeyClass.classify key = .loop declared) :
    contribution options c item = rounds options c declared body := by
  rw [contribution, ended]
  simp only [Bind.bind, Except.bind, loopOf?_eq_some_iff.mpr ⟨key, rfl, kind⟩]

theorem render_of_ending {node last : Value} (ended : ending c node = .ok (some last)) :
    render options c node = render options c last := by
  rw [render, render, meaning_eq node, meaning_eq last, ended, ending_of_ending ended]

theorem contribution_of_ending {item last : Value} (ended : ending c item = .ok (some last))
    (noLoop : loopOf? last = none) :
    contribution options c item = (render options c item).map fun value => [value] := by
  rw [contribution, ended, render_of_ending ended]
  simp only [Bind.bind, Except.bind, noLoop]
  cases render options c last <;> rfl

theorem contribution_array (items : List Value) :
    contribution options c (.array items) =
      (items.mapM (contribution options c)).map fun parts => [.array parts.flatten] := by
  rw [contribution_of_ending rfl rfl, render_array]
  cases items.mapM (contribution options c) <;> rfl

/-- An array renders to what its items add, put one after the other, and fails as the first item
that fails. An item is followed through the branches that blocks select. If that ends in a block
that selects none, the item adds nothing, and if it ends in a loop, the rounds of the loop. Other
items add the one value that they render to: arrays in the array, also those of the context, and the
rounds of a loop in the body of a loop stay together. -/
theorem array_splices (options : CompileOptions) (c : Context) :
    (∀ items, render options c (.array items) =
      (items.mapM (contribution options c)).map fun parts => .array parts.flatten) ∧
    (∀ entries, ending c (.object entries) =
      if isConditionBlock entries then do
        let block ← ConditionBlock.ofEntries entries
        match block.select c with
        | some branch => ending c branch
        | none => return none
      else return some (.object entries)) ∧
    (∀ item, ending c item = .ok none → contribution options c item = .ok []) ∧
    (∀ item key declared body, ending c item = .ok (some (.object [(key, body)])) →
      KeyClass.classify key = .loop declared →
      contribution options c item = rounds options c declared body) ∧
    (∀ item last, ending c item = .ok (some last) → loopOf? last = none →
      contribution options c item = (render options c item).map fun value => [value]) ∧
    (∀ items, contribution options c (.array items) =
      (items.mapM (contribution options c)).map fun parts => [.array parts.flatten]) ∧
    (∀ text, contribution options c (.string text) =
      .ok [Template.compileText options c text]) ∧
    ∀ declared key inner body, KeyClass.classify key = .loop inner →
      rounds options c declared (.object [(key, body)]) = (do
        let scopes ← declared.bind c
        scopes.toList.mapM fun scope => (rounds options scope inner body).map .array) := by
  refine ⟨render_array, ?_, ?_, fun _ _ _ _ => contribution_of_loop,
    fun _ _ => contribution_of_ending, contribution_array, fun _ => rfl,
    fun declared _ _ body kind => rounds_of_loop kind declared body⟩
  · intro entries
    split
    · next conditions => exact ending_of_block conditions
    · next conditions =>
      rw [ending, if_neg conditions]
      rfl
  · intro item ended
    rw [contribution, ended]
    rfl

theorem ending_of_condition {key expression : String} {test : Expression} (body : Value)
    (read : ConditionKey.parse? key = some (.ifTrue expression))
    (parsed : Expression.parse expression = .ok test) :
    ending c (.object [(key, body)]) = if test.eval c then ending c body else .ok none := by
  have conditions : isConditionBlock [(key, body)] = true := by
    simp [isConditionBlock, isConditionKey, read]
  have formed := ConditionBlock.ofEntries_singleton read body
  rw [parsed] at formed
  rw [ending_of_block conditions, formed]
  simp only [Except.map, Bind.bind, Except.bind, ConditionBlock.select_singleton]
  cases test.eval c <;> rfl

theorem ending_of_name {key name : String} {value : Value}
    (read : ConditionKey.parse? key = some (.ifTrue name))
    (parsed : Expression.parse name = .ok (.truthy (.word name)))
    (found : c.get? name = some value) (body : Value) :
    ending c (.object [(key, body)]) = if value.truthy then ending c body else .ok none := by
  rw [ending_of_condition body read parsed, Expression.eval_of_get? found]

theorem render_of_get? {path : String} {value : Value}
    (unfilled : Template.textHasPlaceholder path.toList = false)
    (bare : path.toList.any Text.isBlank = false) (found : c.get? path = some value) :
    render options c (.string path) = .ok value := by
  have compiled : render options c (.string path) =
      .ok (Template.compileText options c path) := rfl
  rw [compiled, Template.compileText_of_get? unfilled bare found]

section Items

variable {name path : String} {items : List Value} (listed : c.get? path = some (.array items))
include listed

theorem rounds_of_array {body : Value} {result : Value → Option Value}
    (each : ∀ item ∈ items,
      iteration options body (c.extend [(name, item)]) = .ok (result item)) :
    rounds options c (.array name path none) body = .ok (items.filterMap result) := by
  have whole : (items.map fun item => c.extend [(name, item)]).mapM (iteration options body) =
      .ok (items.map result) := by
    rw [List.mapM_map]
    exact Steps.mapM_eq_ok each
  simp only [rounds, Loop.bind_array listed, Bind.bind, Except.bind, Scopes.toList_array, whole]
  rw [List.reduceOption, List.filterMap_map]
  rfl

variable (named : name ≠ "") (unfilled : Template.textHasPlaceholder name.toList = false)
  (bare : name.toList.any Text.isBlank = false)
include named unfilled bare

theorem rounds_of_item : rounds options c (.array name path none) (.string name) = .ok items := by
  have each (item : Value) :
      iteration options (.string name) (c.extend [(name, item)]) = .ok (some item) := by
    have ended : ending (c.extend [(name, item)]) (.string name) = .ok (some (.string name)) := rfl
    rw [iteration, ended]
    simp only [Bind.bind, Except.bind,
      render_of_get? unfilled bare (Context.get?_extend_self named c item)]
    rfl
  rw [rounds_of_array listed fun item _ => each item, List.filterMap_some]

/-- A condition on the item of a loop leaves out the rounds in which it is false. -/
theorem rounds_of_item_if {key : String} (read : ConditionKey.parse? key = some (.ifTrue name))
    (parsed : Expression.parse name = .ok (.truthy (.word name))) :
    rounds options c (.array name path none) (.object [(key, .string name)]) =
      .ok (items.filter Value.truthy) := by
  have each (item : Value) :
      iteration options (.object [(key, .string name)]) (c.extend [(name, item)]) =
        .ok (Option.guard Value.truthy item) := by
    have found := Context.get?_extend_self named c item
    have chain := ending_of_name read parsed found (.string name)
    cases holds : item.truthy with
    | false =>
      rw [holds, if_neg Bool.false_ne_true] at chain
      rw [iteration, chain, Option.guard, holds]
      rfl
    | true =>
      rw [holds, if_pos rfl] at chain
      rw [iteration, chain, render_of_ending chain, render_of_get? unfilled bare found,
        Option.guard, holds]
      rfl
  rw [rounds_of_array listed fun item _ => each item, List.filterMap_eq_filter]

end Items

/-- An array of a loop in a branch, one round of which has no value, of a block that selects no
branch, and of a string that is an array. A loop in a loop adds an array for each round. -/
theorem array_splices_beside_array :
    let flags : List Value := [.bool true, .bool false]
    let c : Context := ⟨[("on", .bool true), ("off", .bool false), ("xs", .array flags)]⟩
    let loop : Value := .object [("for x of xs", .object [("if x", .string "x")])]
    let nested : Value := .object [("for x of xs", .object [("for y of xs", .string "y")])]
    ending c (.object [("if on", loop)]) = .ok (some loop) ∧
      ending c (.object [("if off", loop)]) = .ok none ∧
      ending c (.string "xs") = .ok (some (.string "xs")) ∧ loopOf? (.string "xs") = none ∧
      KeyClass.classify "for x of xs" = .loop (.array "x" "xs" none) ∧
      KeyClass.classify "for y of xs" = .loop (.array "y" "xs" none) ∧
      render {} c (.array [.object [("if on", loop)], .object [("if off", loop)], .string "xs"]) =
        .ok (.array [.bool true, .array flags]) ∧
      contribution {} c nested = .ok [.array flags, .array flags] := by
  intro flags c loop nested
  have outer : KeyClass.classify "for x of xs" = .loop (.array "x" "xs" none) := by decide
  have inner : KeyClass.classify "for y of xs" = .loop (.array "y" "xs" none) := by decide
  have unfilled : ∀ name ∈ ["x", "y", "xs"], Template.textHasPlaceholder name.toList = false := by
    have plain : ∀ name ∈ ["x", "y", "xs"], '$' ∉ name.toList := by decide
    exact fun name member => Template.textHasPlaceholder_of_plain (plain name member)
  have on : c.get? "on" = some (.bool true) := Context.get?_of_stored (by decide) rfl
  have off : c.get? "off" = some (.bool false) := Context.get?_of_stored (by decide) rfl
  have xs : c.get? "xs" = some (.array flags) := Context.get?_of_stored (by decide) rfl
  obtain ⟨arrays, -, dropped, loops, values, -, -, nestedLoops⟩ := array_splices {} c
  have looped : ending c loop = .ok (some loop) := ending_of_loop outer _
  have chosen : ending c (.object [("if on", loop)]) = .ok (some loop) :=
    (ending_of_name (by decide) rfl on loop).trans looped
  have ended : ending c (.object [("if off", loop)]) = .ok none :=
    ending_of_name (by decide) rfl off loop
  have first : contribution {} c (.object [("if on", loop)]) = .ok [.bool true] := by
    rw [loops _ _ _ _ chosen outer]
    exact rounds_of_item_if xs (by decide) (unfilled "x" (by simp)) (by decide) (by decide) rfl
  have second : contribution {} c (.object [("if off", loop)]) = .ok [] := dropped _ ended
  have third : contribution {} c (.string "xs") = .ok [.array flags] := by
    rw [values _ _ rfl rfl, render_of_get? (unfilled "xs" (by simp)) (by decide) xs]
    rfl
  have within (item : Value) :
      rounds {} (c.extend [("x", item)]) (.array "y" "xs" none) (.string "y") = .ok flags :=
    rounds_of_item (Context.get?_of_stored (by decide) rfl) (by decide) (unfilled "y" (by simp))
      (by decide)
  refine ⟨chosen, ended, rfl, rfl, outer, inner, ?_, ?_⟩
  · rw [arrays, List.mapM_cons, List.mapM_cons, List.mapM_cons, first, second, third]
    rfl
  · rw [loops _ _ _ _ (ending_of_loop outer _) outer, nestedLoops _ _ _ _ inner,
      Loop.bind_array xs]
    simp only [Bind.bind, Except.bind, Scopes.toList_array, flags, List.map_cons, List.mapM_cons,
      within]
    rfl

end Document

end Docscript

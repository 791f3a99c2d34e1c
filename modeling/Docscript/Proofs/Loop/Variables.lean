import Docscript.Proofs.Context.Shadowing
import Docscript.Proofs.Loop.Declaration
import Docscript.Proofs.Loop.Expansion
import Docscript.Proofs.Template.Keys
import Docscript.Proofs.Text.Trimming

set_option autoImplicit false

namespace Docscript

namespace Template

/-- The template that shows two variables. -/
def pairOf (first second : String) : Value :=
  .object [("v", .string (placeholderOf first)),
    ("k", .string (placeholderOf second))]

theorem compile_pairOf (c : Context) (first second : String) :
    compile {} c (pairOf first second) =
      .object [("v", compile {} c (.string (placeholderOf first))),
        ("k", compile {} c (.string (placeholderOf second)))] := by
  have keys : compileKey {} c "v" = "v" ∧ compileKey {} c "k" = "k" :=
    ⟨compileKey_of_plain (by decide) {} c, compileKey_of_plain (by decide) {} c⟩
  simp only [pairOf, compile, compileEntries, keys]
  rfl

theorem compile_placeholder_of_leaves {c : Context} {name : String} {value : Value}
    (unique : ∀ entry ∈ c.entries, entry.2.UniqueKeys) (named : name ≠ "")
    (undotted : Context.isDotted name = false)
    (plain : ∀ ch ∈ name.toList, Text.isBlank ch = false)
    (unbraced : ∀ ch ∈ name.toList, isBrace ch = false)
    (stored : c.entries.get? name = some value) (leaves : Context.Leaves c.entries name value) :
    compile {} c (.string (placeholderOf name)) = value := by
  have found := Context.get?_expanded_of_leaves unique named undotted stored leaves
  rw [compile_placeholder c named (Text.trim_of_not_blank plain) unbraced, found, Option.getD_some]

end Template

namespace Loop

open Template (compile pairOf placeholderOf isBrace)

variable {c : Context} {key x path i : String} {items : List Value}

theorem round_entries (unique : c.toValue.UniqueKeys) (apart : i ≠ x) {item : Value}
    (formed : item.UniqueKeys) (position : Nat) :
    let entries := (c.entries.insert x item).insert i (.int position)
    entries.get? x = some item ∧ entries.get? i = some (.int position) ∧
      ∀ entry ∈ entries, entry.2.UniqueKeys := by
  refine ⟨?_, Entries.get?_insert_self _ i _, ?_⟩
  · rw [Entries.get?_insert, if_neg apart, Entries.get?_insert_self]
  · intro entry member
    rw [Context.toValue, Value.UniqueKeys] at unique
    rcases Entries.mem_of_mem_insert member with inner | rfl
    · rcases Entries.mem_of_mem_insert inner with old | rfl
      · exact Value.uniqueKeys_of_mem unique.2 old
      · exact formed
    · simp [Value.int, Value.UniqueKeys]

theorem compile_round (unique : c.toValue.UniqueKeys)
    (declared : parse? key = some (.array x path (some i))) (apart : i ≠ x)
    (unbraced : ∀ name ∈ [x, i], ∀ ch ∈ name.toList, isBrace ch = false) {item : Value}
    (formed : item.UniqueKeys) (position : Nat) :
    let scope := c.extend (Scopes.listed x (some i) item position)
    (Context.Leaves c.entries x item →
      compile {} scope (.string (placeholderOf x)) = item) ∧
    (Context.Leaves c.entries i (.int position) →
      compile {} scope (.string (placeholderOf i)) = .int position) := by
  intro scope
  obtain ⟨itemStored, positionStored, formedAll⟩ := round_entries unique apart formed position
  obtain ⟨⟨itemNamed, itemUndotted, itemPlain⟩, positionNamed, positionUndotted, positionPlain⟩ :
      _ ∧ _ := by simpa [boundNames] using plain_of_mem_boundNames declared
  have itemName := Context.isDotted_eq_false_iff.mpr itemUndotted
  have positionName := Context.isDotted_eq_false_iff.mpr positionUndotted
  constructor
  · intro leaves
    have kept := (leaves.insert_self item).insert positionName apart (.int position)
    exact Template.compile_placeholder_of_leaves (c := scope) formedAll itemNamed itemName
      itemPlain (unbraced x (by simp)) itemStored kept
  · intro leaves
    have kept := (leaves.insert itemName (Ne.symm apart) item).insert_self (.int position)
    exact Template.compile_placeholder_of_leaves (c := scope) formedAll positionNamed positionName
      positionPlain (unbraced i (by simp)) positionStored kept

/-- A loop over an array with a name for the position goes through the items in order, once each. In
each round the template that shows the two variables shows the item and its position, each of them
if the entries of the context leave it alone. -/
theorem templates_of_array_loop (unique : c.toValue.UniqueKeys)
    (declared : parse? key = some (.array x path (some i))) (apart : i ≠ x)
    (unbraced : ∀ name ∈ [x, i], ∀ ch ∈ name.toList, isBrace ch = false)
    (found : c.get? path = some (.array items)) :
    ∃ expansion, Expansion.ofDeclaration {} c (.object [(key, pairOf x i)]) = .ok expansion ∧
      ∃ v k : Nat → Value,
        (∀ limit, (expansion.take limit).1.map Round.template =
          (List.range (min limit items.length)).map fun j => .object [("v", v j), ("k", k j)]) ∧
        ∀ j (inside : j < items.length),
          (Context.Leaves c.entries x items[j] → v j = items[j]) ∧
          (Context.Leaves c.entries i (.int j) → k j = .int j) := by
  let scope : Nat → Context := fun j =>
    c.extend (Scopes.listed x (some i) (items[j]?.getD .null) j)
  refine ⟨_, Expansion.ofDeclaration_array {} (pairOf x i) declared found,
    fun j => compile {} (scope j) (.string (placeholderOf x)),
    fun j => compile {} (scope j) (.string (placeholderOf i)), fun limit => ?_, ?_⟩
  · rw [Expansion.take_templates, Scopes.toList_items]
    apply List.ext_getElem
    · simp
    · intro j short long
      have inside : j < items.length := by
        simp only [List.length_map, List.length_range] at long
        omega
      simp [Template.compile_pairOf, scope, inside]
  · intro j inside
    have formed : items[j].UniqueKeys := by
      have whole := Context.uniqueKeys_of_find? unique found
      rw [Value.UniqueKeys] at whole
      exact Value.uniqueKeys_of_mem_items whole (List.getElem_mem inside)
    have shown := compile_round unique declared apart unbraced formed j
    simpa [scope, inside] using shown

/-- Outer variables of the same names do not show, nor do dotted names that unfold elsewhere. -/
theorem templates_of_array_loop_over_outer :
    let c : Context := ⟨[("x", .string "outer"), ("y.x", .int 7), ("i", .null),
      ("items", .array [.object [("a", .int 1)], .string "b"])]⟩
    let items : List Value := [.object [("a", .int 1)], .string "b"]
    c.toValue.UniqueKeys ∧ c.hasDotted = true ∧
      parse? "for x of items with i" = some (.array "x" "items" (some "i")) ∧
      ∃ expansion, Expansion.ofDeclaration {} c
          (.object [("for x of items with i", pairOf "x" "i")]) = .ok expansion ∧
        ∀ limit, (expansion.take limit).1.map Round.template =
          (List.range (min limit 2)).map fun j =>
            .object [("v", items[j]?.getD .null), ("k", .int j)] := by
  intro c items
  have unique : c.toValue.UniqueKeys := by
    simp [c, Context.toValue, Value.UniqueKeys, Value.UniqueKeysEntries, Value.UniqueKeysItems,
      Entries.keys, Value.int]
  have declared : parse? "for x of items with i" = some (.array "x" "items" (some "i")) := by
    decide
  have unbraced : ∀ name ∈ ["x", "i"], ∀ ch ∈ name.toList, isBrace ch = false := by
    simp [isBrace]
  have found : c.get? "items" = some (.array items) := Context.find?_of_name (by decide) rfl
  obtain ⟨expansion, bound, v, k, taken, shown⟩ :=
    templates_of_array_loop unique declared (by decide) unbraced found
  refine ⟨unique, by decide, declared, expansion, bound, fun limit => ?_⟩
  rw [taken]
  apply List.map_congr_left
  intro j member
  have inside : j < items.length := (Nat.lt_min.mp (List.mem_range.mp member)).2
  obtain ⟨item, position⟩ := shown j inside
  rw [item (Context.leaves_of_ne _ (by decide)), position (Context.leaves_of_ne _ (by decide)),
    List.getElem?_eq_getElem inside, Option.getD_some]

/-- An item meets what a dotted name has put under its variable. -/
theorem not_forall_templates_of_array_loop :
    ¬ ∀ (c : Context) (key x path i : String) (items : List Value), c.toValue.UniqueKeys →
      parse? key = some (.array x path (some i)) → i ≠ x →
      (∀ name ∈ [x, i], ∀ ch ∈ name.toList, isBrace ch = false) →
      c.get? path = some (.array items) →
        ∃ expansion, Expansion.ofDeclaration {} c (.object [(key, pairOf x i)]) = .ok expansion ∧
          (expansion.take items.length).1.map Round.template =
            items.mapIdx fun j item => .object [("v", item), ("k", .int j)] := by
  intro always
  let c : Context := ⟨[("items", .array [.object [("a", .int 1)]]), ("x.y", .int 5)]⟩
  let scope : Context := ⟨[("items", .array [.object [("a", .int 1)]]), ("x.y", .int 5),
    ("x", .object [("a", .int 1)]), ("i", .int 0)]⟩
  have extended : c.extend (Scopes.listed "x" (some "i") (.object [("a", .int 1)]) 0) = scope := rfl
  have declared : parse? "for x of items with i" = some (.array "x" "items" (some "i")) := by
    decide
  have found : c.get? "items" = some (.array [.object [("a", .int 1)]]) :=
    Context.find?_of_name (by decide) rfl
  have unbraced : ∀ name ∈ ["x", "i"], ∀ ch ∈ name.toList, isBrace ch = false := by
    simp [isBrace]
  obtain ⟨expansion, bound, shown⟩ := always c "for x of items with i" "x" "items" "i"
    [.object [("a", .int 1)]]
    (by
      simp [c, Context.toValue, Value.UniqueKeys, Value.UniqueKeysEntries, Value.UniqueKeysItems,
        Entries.keys, Value.int])
    declared (by decide) unbraced found
  rw [Expansion.ofDeclaration_array {} (pairOf "x" "i") declared found, Except.ok.injEq] at bound
  rw [← bound, Expansion.take_templates, Scopes.toList_items] at shown
  have merged : scope.expanded.get? "x" = some (.object [("y", .int 5), ("a", .int 1)]) :=
    Context.find?_of_name (by decide) rfl
  have compiled : compile {} scope (.string (placeholderOf "x")) =
      .object [("y", .int 5), ("a", .int 1)] := by
    rw [Template.compile_placeholder scope (by decide) (by decide) (unbraced "x" (by decide)),
      merged, Option.getD_some]
  simp [Template.compile_pairOf, extended, compiled] at shown

end Loop

end Docscript

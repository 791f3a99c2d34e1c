import Docscript.Proofs.Entries
import Docscript.Proofs.Loop.Announced
import Docscript.Proofs.Loop.Declaration
import Mathlib.Data.List.Dedup

set_option autoImplicit false

namespace Docscript

namespace Context

/-- A scope with an item, and its position if there is a name for it, laid over a context. Nothing
is looked up under the empty name. -/
structure Overlaid (c scope : Context) (item : String) (index : Option String) (value : Value)
    (position : Nat) : Prop where
  item_found : item ≠ "" → index ≠ some item → scope.get? item = some value
  index_found : ∀ name, index = some name → name ≠ "" → scope.get? name = some (.int position)
  others_kept : ∀ name, name ∉ item :: index.toList →
    scope.entries.get? name = c.entries.get? name
  keys_eq : scope.entries.keys =
    c.entries.keys ++ (item :: index.toList).dedup.filter (· ∉ c.entries.keys)

variable {c : Context} {item : String} {index : Option String}

theorem get?_extend_of_not_mem {bound : Entries Value} {name : String}
    (other : name ∉ bound.keys) : (c.extend bound).entries.get? name = c.entries.get? name := by
  have absent : Entries.get? bound.reverse name = none := by
    rw [Entries.get?_eq_none_iff]
    simpa [Entries.keys] using other
  rw [extend, Entries.get?_insertAll, absent, Option.none_or]

theorem keys_listed (item : String) (index : Option String) (value : Value) (position : Nat) :
    (Scopes.listed item index value position).keys = item :: index.toList := by
  cases index <;> rfl

/-- The names of a loop are put once each, also where one name is given to both. -/
theorem keys_extend_listed (c : Context) (item : String) (index : Option String) (value : Value)
    (position : Nat) :
    (c.extend (Scopes.listed item index value position)).entries.keys =
      c.entries.keys ++ (item :: index.toList).dedup.filter (· ∉ c.entries.keys) := by
  by_cases merged : index = some item
  · subst merged
    have once : (Entries.keys [(item, Value.int position)]).Nodup := List.nodup_singleton item
    have entries : (c.extend (Scopes.listed item (some item) value position)).entries =
        c.entries.insertAll [(item, .int position)] :=
      Entries.insert_insert_self c.entries item value (.int position)
    rw [entries, Entries.keys_insertAll once]
    simp [Entries.keys]
  · have apart : (item :: index.toList).Nodup := by
      cases index with
      | none => exact List.nodup_singleton item
      | some name => simpa [eq_comm] using merged
    have once := apart
    rw [← keys_listed item index value position] at once
    rw [extend, Entries.keys_insertAll once, keys_listed, List.dedup_eq_self.mpr apart]

theorem overlaid_listed (c : Context) (item : String) (index : Option String) (value : Value)
    (position : Nat) :
    c.Overlaid (c.extend (Scopes.listed item index value position)) item index value position where
  item_found named apart := by
    apply get?_of_stored named
    rw [extend, Entries.get?_insertAll]
    cases index with
    | none => simp [Scopes.listed, Entries.get?]
    | some name =>
      have other : name ≠ item := by simpa using apart
      simp [Scopes.listed, Entries.get?, other]
  index_found name own named := by
    subst own
    apply get?_of_stored named
    exact Entries.get?_insert_self _ name _
  others_kept name other := get?_extend_of_not_mem (by rwa [keys_listed])
  keys_eq := keys_extend_listed c item index value position

end Context

namespace Scopes

/-- Scopes that go through values in order: one scope for each value, with the value and its
position laid over a context. -/
structure GoesThrough (scopes : Scopes) (c : Context) (item : String) (index : Option String)
    (values : List Value) : Prop where
  yields : Yields next? scopes values.length
  each : ∀ j (inside : j < values.length), ∃ scope,
    (∀ limit, j < limit → (scopes.take limit).1[j]? = some scope) ∧
      c.Overlaid scope item index values[j] j

theorem goesThrough_items (c : Context) (item : String) (index : Option String)
    (values : List Value) : GoesThrough ⟨c, .items item index 0 values⟩ c item index values := by
  constructor
  · exact yields_remaining ⟨c, .items item index 0 values⟩
  · intro j inside
    refine ⟨c.extend (listed item index values[j] j), fun limit early => ?_,
      Context.overlaid_listed c item index values[j] j⟩
    rw [take_fst, List.getElem?_take_of_lt early, toList_items]
    simp [inside]

end Scopes

namespace Loop

theorem ne_empty_of_mem_boundNames {key : String} {declared : Loop}
    (read : parse? key = some declared) : "" ∉ declared.boundNames :=
  fun member => (plain_of_mem_boundNames read "" member).1 rfl

/-- A loop over a collection has one scope for each item of the array or each key of the object, in
order. An item is found under its name, unless its position has the same name; the position is found
under its own; all other entries of the context stay, and new names come after them. The names that
a key can declare are never empty. -/
theorem scopes_of_collection (c : Context) (item path : String) (index : Option String) :
    (∀ items, c.get? path = some (.array items) → ∃ scopes,
      bind c (.array item path index) = .ok scopes ∧ scopes.GoesThrough c item index items) ∧
    (∀ entries, c.get? path = some (.object entries) → ∃ scopes,
      bind c (.object item path index) = .ok scopes ∧
        scopes.GoesThrough c item index ((Entries.keys entries).map .string)) ∧
    ∀ key, parse? key = some (.array item path index) ∨
      parse? key = some (.object item path index) → item ≠ "" ∧ index ≠ some "" := by
  refine ⟨?_, ?_, ?_⟩
  · intro items found
    exact ⟨_, bind_array found item index, Scopes.goesThrough_items c item index items⟩
  · intro entries found
    refine ⟨_, ?_, Scopes.goesThrough_items c item index ((Entries.keys entries).map .string)⟩
    rw [bind, found]
  · intro key read
    have nonempty : "" ∉ item :: index.toList := by
      rcases read with array | object
      · exact ne_empty_of_mem_boundNames array
      · exact ne_empty_of_mem_boundNames object
    simpa [eq_comm] using nonempty

/-- Loops whose items hide the array and the object that they go through. -/
theorem scopes_of_collection_over_itself :
    let items : List Value := [.string "a", .null]
    let entries : Entries Value := [("k", .null), ("m", .int 1)]
    let c : Context := ⟨[("x", .array items), ("y", .object entries)]⟩
    parse? "for x of x with i" = some (.array "x" "x" (some "i")) ∧
      parse? "each y in y" = some (.object "y" "y" none) ∧
      c.get? "x" = some (.array items) ∧ c.get? "y" = some (.object entries) ∧
      (∃ scopes, bind c (.array "x" "x" (some "i")) = .ok scopes ∧
        Yields Scopes.next? scopes 2 ∧
        ∃ scope, (scopes.take 2).1[1]? = some scope ∧ scope.get? "x" = some .null ∧
          scope.get? "i" = some (.int 1) ∧ scope.entries.keys = ["x", "y", "i"]) ∧
      ∃ scopes, bind c (.object "y" "y" none) = .ok scopes ∧ Yields Scopes.next? scopes 2 ∧
        ∃ scope, (scopes.take 2).1[0]? = some scope ∧ scope.get? "y" = some (.string "k") ∧
          scope.entries.keys = ["x", "y"] := by
  intro items entries c
  have array : parse? "for x of x with i" = some (.array "x" "x" (some "i")) := by decide
  have object : parse? "each y in y" = some (.object "y" "y" none) := by decide
  have itemsFound : c.get? "x" = some (.array items) := Context.get?_of_stored (by decide) rfl
  have entriesFound : c.get? "y" = some (.object entries) :=
    Context.get?_of_stored (by decide) rfl
  obtain ⟨arrayThrough, -, arrayNames⟩ := scopes_of_collection c "x" "x" (some "i")
  obtain ⟨-, objectThrough, objectNames⟩ := scopes_of_collection c "y" "y" none
  obtain ⟨itemNamed, -⟩ := arrayNames "for x of x with i" (.inl array)
  obtain ⟨keyNamed, -⟩ := objectNames "each y in y" (.inr object)
  refine ⟨array, object, itemsFound, entriesFound, ?_, ?_⟩
  · obtain ⟨scopes, bound, goes⟩ := arrayThrough items itemsFound
    obtain ⟨scope, taken, laid⟩ := goes.each 1 (by decide)
    refine ⟨scopes, bound, goes.yields, scope, taken 2 (by decide),
      laid.item_found itemNamed (by decide), laid.index_found "i" rfl (by decide), ?_⟩
    rw [laid.keys_eq]
    decide
  · obtain ⟨scopes, bound, goes⟩ := objectThrough entries entriesFound
    obtain ⟨scope, taken, laid⟩ := goes.each 0 (by decide)
    refine ⟨scopes, bound, goes.yields, scope, taken 2 (by decide),
      laid.item_found keyNamed (by decide), ?_⟩
    rw [laid.keys_eq]
    decide

/-- A name that is given to the item and to its position stands for the position. -/
theorem not_forall_item_found :
    ¬ ∀ (key item path : String) (index : Option String) (c : Context) (items : List Value)
      (scopes : Scopes), parse? key = some (.array item path index) →
      c.get? path = some (.array items) → bind c (.array item path index) = .ok scopes →
      ∀ j (inside : j < items.length), ∃ scope, (scopes.take items.length).1[j]? = some scope ∧
        scope.get? item = some items[j] := by
  intro always
  let c : Context := ⟨[("xs", .array [.string "a"])]⟩
  have found : c.get? "xs" = some (.array [.string "a"]) :=
    Context.get?_of_stored (by decide) rfl
  have bound : bind c (.array "x" "xs" (some "x")) =
      .ok ⟨c, .items "x" (some "x") 0 [.string "a"]⟩ := bind_array found "x" (some "x")
  obtain ⟨scope, taken, shown⟩ := always "for x of xs with x" "x" "xs" (some "x") c [.string "a"]
    _ (by decide) found bound 0 (by decide)
  have own : c.extend (Scopes.listed "x" (some "x") (.string "a") 0) = scope :=
    Option.some.inj taken
  have position : scope.get? "x" = some (.int 0) :=
    own ▸ Context.get?_of_stored (by decide) rfl
  rw [position] at shown
  cases shown

end Loop

end Docscript

import Docscript.Loop.Scopes
import Docscript.Proofs.Steps
import Mathlib.Data.Int.Range
import Mathlib.Data.List.ReduceOption

set_option autoImplicit false

namespace Docscript

namespace Scopes

/-- The variables that a round of a counter binds. -/
def counted (name : Option String) (n : Int) : Entries Value :=
  match name with
  | some name => [(name, .int n)]
  | none => []

/-- The variables that a round over a list binds. -/
def listed (name : String) (index : Option String) (item : Value) (position : Nat) :
    Entries Value :=
  match index with
  | some index => [(name, item), (index, .int position)]
  | none => [(name, item)]

/-- The scopes that are still to come, in order. -/
def toList (scopes : Scopes) : List Context :=
  match scopes.cursor with
  | .counter name next stop =>
    (Int.range next.toInt stop.toInt).map fun n => scopes.base.extend (counted name n)
  | .items name index position rest =>
    (rest.zipIdx position).map fun (item, place) =>
      scopes.base.extend (listed name index item place)

theorem toList_counter (base : Context) (name : Option String) (next stop : Int64) :
    toList ⟨base, .counter name next stop⟩ =
      (Int.range next.toInt stop.toInt).map fun n => base.extend (counted name n) := rfl

theorem toList_items (base : Context) (name : String) (index : Option String) (position : Nat)
    (rest : List Value) :
    toList ⟨base, .items name index position rest⟩ =
      (rest.zipIdx position).map fun (item, place) =>
        base.extend (listed name index item place) := rfl

theorem toList_array (base : Context) (name : String) (items : List Value) :
    toList ⟨base, .items name none 0 items⟩ = items.map fun item => base.extend [(name, item)] := by
  have each : (fun pair : Value × Nat => base.extend (listed name none pair.1 pair.2)) =
      (fun item => base.extend [(name, item)]) ∘ Prod.fst := rfl
  rw [toList_items, each, ← List.map_map, List.zipIdx_map_fst]

theorem toInt_succ_of_lt {next stop : Int64} (before : next < stop) :
    (next + 1).toInt = next.toInt + 1 := by
  have low := Int64.minValue_le_toInt next
  have order := Int64.lt_iff_toInt_lt.mp before
  have high := Int64.toInt_le stop
  rw [Int64.toInt_maxValue] at high
  rw [Int64.toInt_minValue] at low
  rw [Int64.toInt_add, Int64.toInt_one]
  exact Int.bmod_eq_of_le (by omega) (by omega)

theorem range_of_le {first stop : Int} (reached : stop ≤ first) : Int.range first stop = [] := by
  have empty : (stop - first).toNat = 0 := by omega
  rw [Int.range, empty]
  rfl

theorem range_of_lt {first stop : Int} (before : first < stop) :
    Int.range first stop = first :: Int.range (first + 1) stop := by
  have more : (stop - first).toNat = (stop - (first + 1)).toNat + 1 := by omega
  rw [Int.range, Int.range, more, List.range_succ_eq_map, List.map_cons, List.map_map]
  simp [Function.comp_def, Int.add_assoc, Int.add_comm 1]

theorem next?_counter (base : Context) (name : Option String) (next stop : Int64) :
    next? ⟨base, .counter name next stop⟩ =
      if next < stop then
        some (base.extend (counted name next.toInt), ⟨base, .counter name (next + 1) stop⟩)
      else none := by
  cases name <;> rfl

theorem next?_items_cons (base : Context) (name : String) (index : Option String)
    (position : Nat) (item : Value) (rest : List Value) :
    next? ⟨base, .items name index position (item :: rest)⟩ =
      some (base.extend (listed name index item position),
        ⟨base, .items name index (position + 1) rest⟩) := by
  cases index <;> rfl

theorem toList_of_next?_eq_none {scopes : Scopes} (ended : scopes.next? = none) :
    scopes.toList = [] := by
  obtain ⟨base, cursor⟩ := scopes
  cases cursor with
  | counter name next stop =>
    rw [next?_counter] at ended
    have reached : ¬ next < stop := by
      intro before
      rw [if_pos before] at ended
      cases ended
    rw [Int64.lt_iff_toInt_lt] at reached
    rw [toList_counter, range_of_le (by omega), List.map_nil]
  | items name index position rest =>
    cases rest with
    | nil => rfl
    | cons item rest =>
      rw [next?_items_cons] at ended
      cases ended

theorem toList_of_next?_eq_some {scopes after : Scopes} {scope : Context}
    (pulled : scopes.next? = some (scope, after)) : scopes.toList = scope :: after.toList := by
  obtain ⟨base, cursor⟩ := scopes
  cases cursor with
  | counter name next stop =>
    rw [next?_counter] at pulled
    by_cases before : next < stop
    · rw [if_pos before, Option.some.injEq, Prod.mk.injEq] at pulled
      obtain ⟨rfl, rfl⟩ := pulled
      have order := Int64.lt_iff_toInt_lt.mp before
      rw [toList_counter, toList_counter, range_of_lt order, toInt_succ_of_lt before,
        List.map_cons]
    · rw [if_neg before] at pulled
      cases pulled
  | items name index position rest =>
    cases rest with
    | nil => cases pulled
    | cons item rest =>
      rw [next?_items_cons, Option.some.injEq, Prod.mk.injEq] at pulled
      obtain ⟨rfl, rfl⟩ := pulled
      rw [toList_items, toList_items, List.zipIdx_cons, List.map_cons]

theorem takeOnto_eq (done : List Context) (limit : Nat) (scopes : Scopes) :
    (takeOnto done limit scopes).1 = done.reverse ++ scopes.toList.take limit ∧
      (takeOnto done limit scopes).2.toList = scopes.toList.drop limit := by
  induction limit generalizing done scopes with
  | zero => simp [takeOnto]
  | succ limit ih =>
    rw [takeOnto]
    cases pulled : scopes.next? with
    | none =>
      have empty := toList_of_next?_eq_none pulled
      simp [empty]
    | some pair =>
      obtain ⟨scope, after⟩ := pair
      have whole := toList_of_next?_eq_some pulled
      have rest := ih (scope :: done) after
      simpa [whole] using rest

theorem take_fst (limit : Nat) (scopes : Scopes) :
    (scopes.take limit).1 = scopes.toList.take limit := by
  simpa [take] using (takeOnto_eq [] limit scopes).1

theorem toList_take_snd (limit : Nat) (scopes : Scopes) :
    (scopes.take limit).2.toList = scopes.toList.drop limit :=
  (takeOnto_eq [] limit scopes).2

theorem length_toList (scopes : Scopes) : scopes.toList.length = scopes.remaining := by
  obtain ⟨base, cursor⟩ := scopes
  cases cursor with
  | counter name next stop =>
    rw [toList_counter, List.length_map, Int.range, List.length_map, List.length_range, remaining]
  | items name index position rest =>
    rw [toList_items, List.length_map, List.length_zipIdx, remaining]

/-- The results that are collected are those of the front of the list, up to the first error. -/
theorem collectOnto_eq {α : Type} (result : Context → Except Error (Option α)) (done : List α)
    (rounds : Nat) (scopes : Scopes) :
    collectOnto result done rounds scopes =
      ((scopes.toList.take rounds).mapM result).map fun found =>
        done.reverse ++ found.reduceOption := by
  induction rounds generalizing done scopes with
  | zero => simp [collectOnto, pure, Except.pure, Except.map]
  | succ rounds ih =>
    rw [collectOnto]
    cases pulled : scopes.next? with
    | none =>
      simp [toList_of_next?_eq_none pulled, pure, Except.pure, Except.map]
    | some pair =>
      obtain ⟨scope, after⟩ := pair
      simp only [toList_of_next?_eq_some pulled, List.take_succ_cons, List.mapM_cons]
      cases result scope with
      | error error => rfl
      | ok own =>
        cases later : (after.toList.take rounds).mapM result with
        | error error => cases own <;> simp [ih, later, Except.map, bind, Except.bind]
        | ok found =>
          cases own <;>
            simp [ih, later, Except.map, bind, Except.bind, pure, Except.pure]

theorem collect_eq {α : Type} (result : Context → Except Error (Option α)) (scopes : Scopes) :
    scopes.collect result = (scopes.toList.mapM result).map List.reduceOption := by
  rw [collect, collectOnto_eq, ← length_toList, List.take_length]
  rfl

theorem collect_eq_map {α : Type} {result : Context → Except Error (Option α)}
    {value : Context → α} {scopes : Scopes}
    (each : ∀ scope ∈ scopes.toList, result scope = .ok (some (value scope))) :
    scopes.collect result = .ok (scopes.toList.map value) := by
  have found := Steps.mapM_eq_ok each
  rw [collect_eq, found, Except.map, List.reduceOption, List.filterMap_map]
  simp

theorem exists_of_collect_eq_ok {α : Type} {result : Context → Except Error (Option α)}
    {scopes : Scopes} {values : List α} (collected : scopes.collect result = .ok values) :
    ∀ value ∈ values, ∃ scope ∈ scopes.toList, result scope = .ok (some value) := by
  rw [collect_eq] at collected
  obtain ⟨found, each, rfl⟩ := Steps.of_map_eq_ok collected
  intro value member
  exact Steps.exists_of_mapM_eq_ok each _ (List.reduceOption_mem_iff.mp member)

end Scopes

theorem Loop.bind_array {c : Context} {path : String} {items : List Value}
    (found : c.get? path = some (.array items)) (name : String) (index : Option String) :
    (array name path index).bind c = .ok ⟨c, .items name index 0 items⟩ := by
  rw [bind, found]

end Docscript

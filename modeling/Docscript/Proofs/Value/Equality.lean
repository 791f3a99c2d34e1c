import Docscript.Proofs.Entries
import Docscript.Proofs.Value.Inheritance
import Mathlib.Data.List.Perm.Subperm

set_option autoImplicit false

namespace Docscript

namespace Number

/-- Numbers beyond the doubles are the same only as themselves. -/
theorem same_iff {m n : Number} :
    m.same n = true ↔
      m = n ∨ ∃ x y, m.toDouble? = some x ∧ n.toDouble? = some y ∧ x.same y = true := by
  constructor
  · intro equal
    rw [same] at equal
    split at equal
    · next x y ofM ofN => exact .inr ⟨x, y, ofM, ofN, equal⟩
    · exact .inl (beq_iff_eq.mp equal)
  · rintro (rfl | ⟨x, y, ofM, ofN, equal⟩)
    · cases ofM : m.toDouble? with
      | none => simp [same, ofM]
      | some x => simp [same, ofM, Binary64.same_refl]
    · rw [same, ofM, ofN]
      exact equal

theorem same_symm {m n : Number} (equal : m.same n = true) : n.same m = true := by
  rcases same_iff.mp equal with rfl | ⟨x, y, ofM, ofN, doubles⟩
  · exact equal
  · exact same_iff.mpr (.inr ⟨y, x, ofN, ofM, Binary64.same_comm x y ▸ doubles⟩)

theorem same_trans {k m n : Number} (first : k.same m = true) (second : m.same n = true) :
    k.same n = true := by
  rcases same_iff.mp first with rfl | ⟨x, y, ofK, ofM, doubles⟩
  · exact second
  · rcases same_iff.mp second with rfl | ⟨y', z, ofM', ofN, others⟩
    · exact first
    · rw [ofM, Option.some.injEq] at ofM'
      subst ofM'
      exact same_iff.mpr (.inr ⟨x, z, ofK, ofN, Binary64.same_trans doubles others⟩)

end Number

namespace Value

/-- Two values are equal, as conditions compare them. -/
abbrev Equal (a b : Value) : Prop := a.strictEq b = true

/-- At each position arrays have equal items or none. -/
theorem equal_array_iff {a b : List Value} :
    Equal (.array a) (.array b) ↔ ∀ i : Nat, Option.Rel Equal a[i]? b[i]? := by
  rw [Equal, strictEq]
  induction a generalizing b with
  | nil =>
    cases b with
    | nil => exact iff_of_true rfl fun i => .none
    | cons second others => exact iff_of_false (by simp [strictEqItems]) fun each => nomatch each 0
  | cons first rest ih =>
    cases b with
    | nil => exact iff_of_false (by simp [strictEqItems]) fun each => nomatch each 0
    | cons second others =>
      rw [strictEqItems, Bool.and_eq_true, ih]
      constructor
      · rintro ⟨front, later⟩ (_ | i)
        · exact .some front
        · exact later i
      · intro each
        refine ⟨?_, fun i => each (i + 1)⟩
        cases each 0 with
        | some front => exact front

theorem strictEqEntries_iff {a b : Entries Value} :
    strictEqEntries a b = true ↔
      ∀ entry ∈ a, ∃ value, b.get? entry.1 = some value ∧ Equal entry.2 value := by
  induction a with
  | nil => simp [strictEqEntries]
  | cons entry rest ih =>
    obtain ⟨key, held⟩ := entry
    rw [strictEqEntries, Bool.and_eq_true, ih, List.forall_mem_cons]
    cases b.get? key <;> simp

/-- Under each key objects without repeated keys have equal values or none: the keys of the first
are keys of the second, which has no others since it has as many. -/
theorem equal_object_iff {a b : Entries Value} (onceA : a.keys.Nodup) (onceB : b.keys.Nodup) :
    Equal (.object a) (.object b) ↔ ∀ key, Option.Rel Equal (a.get? key) (b.get? key) := by
  rw [Equal, strictEq, Bool.and_eq_true, strictEqEntries_iff, beq_iff_eq]
  constructor
  · rintro ⟨sizes, each⟩ key
    cases stored : a.get? key with
    | some value =>
      obtain ⟨other, found, equal⟩ := each (key, value) (Entries.mem_of_get? stored)
      rw [found]
      exact .some equal
    | none =>
      have within : a.keys ⊆ b.keys := by
        intro name member
        obtain ⟨entry, inside, rfl⟩ := List.mem_map.mp member
        obtain ⟨other, found, -⟩ := each entry inside
        exact List.mem_map.mpr ⟨_, Entries.mem_of_get? found, rfl⟩
      have sameKeys : a.keys.Perm b.keys := by
        apply (List.subperm_of_subset onceA within).perm_of_length_le
        rw [Entries.keys, Entries.keys, List.length_map, List.length_map]
        exact Nat.le_of_eq sizes.symm
      have absent : key ∉ b.keys := fun member =>
        Entries.get?_eq_none_iff.mp stored (sameKeys.mem_iff.mpr member)
      rw [Entries.get?_eq_none_iff.mpr absent]
      exact .none
  · intro each
    have sameKeys : a.keys.Perm b.keys := by
      refine (List.perm_ext_iff_of_nodup onceA onceB).mpr fun key => ?_
      rw [← not_iff_not, ← Entries.get?_eq_none_iff, ← Entries.get?_eq_none_iff]
      have equal := each key
      generalize a.get? key = first, b.get? key = second at equal
      cases equal <;> simp
    constructor
    · simpa [Entries.keys] using sameKeys.length_eq
    · intro entry member
      have equal := each entry.1
      rw [(Entries.get?_eq_some_iff onceA).mpr member] at equal
      generalize b.get? entry.1 = found at equal
      cases equal with
      | some equal => exact ⟨_, rfl, equal⟩

section Rel

variable {R : Value → Value → Prop} {x y z : Option Value}

theorem rel_refl (self : ∀ v, x = some v → R v v) : Option.Rel R x x := by
  cases x with
  | none => exact .none
  | some v => exact .some (self v rfl)

theorem rel_symm (related : Option.Rel R x y)
    (turn : ∀ v w, x = some v → y = some w → R v w → R w v) : Option.Rel R y x := by
  cases related with
  | none => exact .none
  | some pair => exact .some (turn _ _ rfl rfl pair)

theorem rel_trans (first : Option.Rel R x y) (second : Option.Rel R y z)
    (chain : ∀ u v w, x = some u → y = some v → z = some w → R u v → R v w → R u w) :
    Option.Rel R x z := by
  cases first with
  | none => exact second
  | some one => cases second with
    | some other => exact .some (chain _ _ _ rfl rfl rfl one other)

end Rel

theorem equal_refl {a : Value} (unique : a.UniqueKeys) : Equal a a := by
  induction a using induction_parts with
  | null => rfl
  | bool x => exact beq_self_eq_true x
  | number n => exact Number.same_iff.mpr (.inl rfl)
  | string s => exact beq_self_eq_true s
  | array items ih =>
    rw [uniqueKeys_array_iff] at unique
    refine equal_array_iff.mpr fun i => rel_refl fun item found => ?_
    have member := List.mem_of_getElem? found
    exact ih item member (unique item member)
  | object entries ih =>
    obtain ⟨once, unique⟩ := uniqueKeys_object_iff.mp unique
    refine (equal_object_iff once once).mpr fun key => rel_refl fun value found => ?_
    have member := Entries.mem_of_get? found
    exact ih _ member (unique _ member)

theorem equal_symm {a b : Value} (uniqueA : a.UniqueKeys) (uniqueB : b.UniqueKeys)
    (equal : Equal a b) : Equal b a := by
  induction a using induction_parts generalizing b with
  | null => cases b with
    | null => rfl
    | _ => cases equal
  | bool x => cases b with
    | bool y => exact beq_iff_eq.mpr (eq_of_beq equal).symm
    | _ => cases equal
  | number m => cases b with
    | number n => exact Number.same_symm equal
    | _ => cases equal
  | string s => cases b with
    | string t => exact beq_iff_eq.mpr (eq_of_beq equal).symm
    | _ => cases equal
  | array items ih => cases b with
    | array others =>
      rw [uniqueKeys_array_iff] at uniqueA uniqueB
      refine equal_array_iff.mpr fun i => rel_symm (equal_array_iff.mp equal i) ?_
      intro item other found opposite same
      have member := List.mem_of_getElem? found
      exact ih item member (uniqueA item member) (uniqueB other (List.mem_of_getElem? opposite))
        same
    | _ => cases equal
  | object entries ih => cases b with
    | object others =>
      have onceA := nodup_keys_of_uniqueKeys uniqueA
      have onceB := nodup_keys_of_uniqueKeys uniqueB
      refine (equal_object_iff onceB onceA).mpr fun key =>
        rel_symm ((equal_object_iff onceA onceB).mp equal key) ?_
      intro value other found opposite same
      exact ih _ (Entries.mem_of_get? found) (uniqueKeys_of_get? uniqueA found)
        (uniqueKeys_of_get? uniqueB opposite) same
    | _ => cases equal

theorem equal_trans {a b c : Value} (uniqueA : a.UniqueKeys) (uniqueB : b.UniqueKeys)
    (uniqueC : c.UniqueKeys) (first : Equal a b) (second : Equal b c) : Equal a c := by
  induction a using induction_parts generalizing b c with
  | null => cases b with
    | null => exact second
    | _ => cases first
  | bool x => cases b with
    | bool y =>
      obtain rfl : x = y := eq_of_beq first
      exact second
    | _ => cases first
  | number m => cases b with
    | number n => cases c with
      | number k => exact Number.same_trans first second
      | _ => cases second
    | _ => cases first
  | string s => cases b with
    | string t =>
      obtain rfl : s = t := eq_of_beq first
      exact second
    | _ => cases first
  | array items ih => cases b with
    | array others => cases c with
      | array more =>
        rw [uniqueKeys_array_iff] at uniqueA uniqueB uniqueC
        refine equal_array_iff.mpr fun i =>
          rel_trans (equal_array_iff.mp first i) (equal_array_iff.mp second i) ?_
        intro item other last found between after
        have member := List.mem_of_getElem? found
        exact ih item member (uniqueA item member) (uniqueB other (List.mem_of_getElem? between))
          (uniqueC last (List.mem_of_getElem? after))
      | _ => cases second
    | _ => cases first
  | object entries ih => cases b with
    | object others => cases c with
      | object more =>
        have onceA := nodup_keys_of_uniqueKeys uniqueA
        have onceB := nodup_keys_of_uniqueKeys uniqueB
        have onceC := nodup_keys_of_uniqueKeys uniqueC
        refine (equal_object_iff onceA onceC).mpr fun key =>
          rel_trans ((equal_object_iff onceA onceB).mp first key)
            ((equal_object_iff onceB onceC).mp second key) ?_
        intro value other last found between after
        exact ih _ (Entries.mem_of_get? found) (uniqueKeys_of_get? uniqueA found)
          (uniqueKeys_of_get? uniqueB between) (uniqueKeys_of_get? uniqueC after)
      | _ => cases second
    | _ => cases first

theorem equal_equivalence :
    Equivalence fun a b : {value : Value // value.UniqueKeys} => Equal a.1 b.1 where
  refl a := equal_refl a.2
  symm := fun {a b} => equal_symm a.2 b.2
  trans := fun {a b c} => equal_trans a.2 b.2 c.2

/-- Two values that differ in the order of the entries of objects alone, at any depth. -/
inductive Reordered : Value → Value → Prop where
  | refl (a : Value) : Reordered a a
  | trans {a b c : Value} (first : Reordered a b) (second : Reordered b c) : Reordered a c
  | entries {before after : Entries Value} (order : before.Perm after) :
      Reordered (.object before) (.object after)
  | item (front : List Value) {a b : Value} (inner : Reordered a b) (rest : List Value) :
      Reordered (.array (front ++ a :: rest)) (.array (front ++ b :: rest))
  | value (front : Entries Value) (key : String) {a b : Value} (inner : Reordered a b)
      (rest : Entries Value) :
      Reordered (.object (front ++ (key, a) :: rest)) (.object (front ++ (key, b) :: rest))

theorem equal_of_perm {before after : Entries Value} (order : before.Perm after)
    (unique : (object before).UniqueKeys) :
    (object after).UniqueKeys ∧ Equal (.object before) (.object after) := by
  have whole := uniqueKeys_object_iff.mp unique
  have once : after.keys.Nodup := (order.map _).nodup_iff.mp whole.1
  refine ⟨uniqueKeys_object_iff.mpr ⟨once, fun entry member => ?_⟩, ?_⟩
  · exact whole.2 entry (order.mem_iff.mpr member)
  · have same (key : String) : before.get? key = after.get? key := by
      ext value
      rw [Entries.get?_eq_some_iff whole.1, Entries.get?_eq_some_iff once, order.mem_iff]
    refine (equal_object_iff whole.1 once).mpr fun key => ?_
    rw [← same key]
    exact rel_refl fun value found => equal_refl (uniqueKeys_of_get? unique found)

theorem equal_of_item {front rest : List Value} {a b : Value} (equal : Equal a b)
    (unique : (array (front ++ a :: rest)).UniqueKeys) :
    Equal (.array (front ++ a :: rest)) (.array (front ++ b :: rest)) := by
  rw [uniqueKeys_array_iff] at unique
  refine equal_array_iff.mpr fun i => ?_
  rw [List.getElem?_append, List.getElem?_append]
  split
  · refine rel_refl fun item found => equal_refl (unique item ?_)
    exact List.mem_append_left _ (List.mem_of_getElem? found)
  · cases i - front.length with
    | zero => exact .some equal
    | succ position =>
      refine rel_refl fun item found => equal_refl (unique item ?_)
      exact List.mem_append_right _ (List.mem_cons_of_mem a (List.mem_of_getElem? found))

theorem equal_of_value {front rest : Entries Value} {key : String} {a b : Value}
    (equal : Equal a b) (uniqueA : (object (front ++ (key, a) :: rest)).UniqueKeys)
    (uniqueB : (object (front ++ (key, b) :: rest)).UniqueKeys) :
    Equal (.object (front ++ (key, a) :: rest)) (.object (front ++ (key, b) :: rest)) := by
  have onceA := nodup_keys_of_uniqueKeys uniqueA
  have onceB := nodup_keys_of_uniqueKeys uniqueB
  refine (equal_object_iff onceA onceB).mpr fun name => ?_
  by_cases own : name = key
  · subst own
    have foundA := (Entries.get?_eq_some_iff onceA).mpr
      (List.mem_append_right front List.mem_cons_self)
    have foundB := (Entries.get?_eq_some_iff onceB).mpr
      (List.mem_append_right front List.mem_cons_self)
    rw [foundA, foundB]
    exact .some equal
  · have same : Entries.get? (front ++ (key, a) :: rest) name =
        Entries.get? (front ++ (key, b) :: rest) name := by
      rw [Entries.get?_append, Entries.get?_append, Entries.get?, Entries.get?,
        if_neg (Ne.symm own), if_neg (Ne.symm own)]
    rw [← same]
    exact rel_refl fun value found => equal_refl (uniqueKeys_of_get? uniqueA found)

theorem equal_of_reordered {a b : Value} (order : Reordered a b) (unique : a.UniqueKeys) :
    b.UniqueKeys ∧ Equal a b := by
  induction order with
  | refl a => exact ⟨unique, equal_refl unique⟩
  | trans _ _ ihFirst ihSecond =>
    obtain ⟨uniqueB, first⟩ := ihFirst unique
    obtain ⟨uniqueC, second⟩ := ihSecond uniqueB
    exact ⟨uniqueC, equal_trans unique uniqueB uniqueC first second⟩
  | entries order => exact equal_of_perm order unique
  | @item front a b _ rest ih =>
    have whole := uniqueKeys_array_iff.mp unique
    rw [List.forall_mem_append, List.forall_mem_cons] at whole
    obtain ⟨uniqueB, equal⟩ := ih whole.2.1
    refine ⟨uniqueKeys_array_iff.mpr ?_, equal_of_item equal unique⟩
    rw [List.forall_mem_append, List.forall_mem_cons]
    exact ⟨whole.1, uniqueB, whole.2.2⟩
  | @value front key a b _ rest ih =>
    have whole := uniqueKeys_object_iff.mp unique
    rw [List.forall_mem_append, List.forall_mem_cons] at whole
    obtain ⟨once, earlier, own, later⟩ := whole
    obtain ⟨uniqueB, equal⟩ := ih own
    have uniqueAfter : (object (front ++ (key, b) :: rest)).UniqueKeys := by
      rw [uniqueKeys_object_iff, List.forall_mem_append, List.forall_mem_cons]
      refine ⟨?_, earlier, uniqueB, later⟩
      simpa [Entries.keys] using once
    exact ⟨uniqueAfter, equal_of_value equal unique uniqueAfter⟩

/-- The order of entries does not count, on neither side. -/
theorem strictEq_of_reordered {a a' b b' : Value} (uniqueA : a.UniqueKeys)
    (uniqueB : b.UniqueKeys) (orderA : Reordered a a') (orderB : Reordered b b') :
    a'.strictEq b' = a.strictEq b := by
  obtain ⟨uniqueA', equalA⟩ := equal_of_reordered orderA uniqueA
  obtain ⟨uniqueB', equalB⟩ := equal_of_reordered orderB uniqueB
  rw [Bool.eq_iff_iff]
  constructor
  · intro equal
    have through := equal_trans uniqueA uniqueA' uniqueB' equalA equal
    exact equal_trans uniqueA uniqueB' uniqueB through (equal_symm uniqueB uniqueB' equalB)
  · intro equal
    have back := equal_symm uniqueA uniqueA' equalA
    exact equal_trans uniqueA' uniqueB uniqueB' (equal_trans uniqueA' uniqueA uniqueB back equal)
      equalB

end Value

end Docscript

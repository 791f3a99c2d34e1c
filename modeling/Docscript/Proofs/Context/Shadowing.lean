import Docscript.Proofs.Context.Unfolding
import Docscript.Proofs.Entries

set_option autoImplicit false

namespace Docscript

namespace Context

variable {c : Context} {entries : Entries Value} {name other : String} {value : Value}

/-- The other entries of a context leave a value alone that is put under a name. -/
def Leaves (entries : Entries Value) (name : String) (value : Value) : Prop :=
  Settled (entries.before name) (entries.after name) [name] value

theorem unfolding_of_undotted (undotted : isDotted name = false) (value : Value) :
    unfolding (name, value) = .object [(name, value)] := by
  have single : unfoldedNames (name, value).1 = [name] := by rw [unfoldedNames, undotted]; rfl
  have whole : unfolding (name, value) = .object [(name, nest value [])] :=
    unfolding_of_names single
  rw [whole, nest]

theorem misses_unfolding_of_ne {entry : String × Value}
    (apart : (unfoldedNames entry.1).head? ≠ some name) :
    (unfolding entry).misses [name] = true := by
  rw [unfolding, Value.misses_object_cons, get?_unfoldEntry_of_ne [] apart, Entries.get?_nil,
    Option.all_none]

theorem follow?_unfolding_of_ne {entry : String × Value}
    (apart : (unfoldedNames entry.1).head? ≠ some name) :
    (unfolding entry).follow? [name] = none := by
  rw [unfolding, Value.follow?_object_cons, get?_unfoldEntry_of_ne [] apart, Entries.get?_nil,
    Option.bind_none]

theorem leaves_of_ne (value : Value)
    (apart : ∀ entry ∈ entries.before name ++ entries.after name,
      (unfoldedNames entry.1).head? ≠ some name) : Leaves entries name value := by
  rw [List.forall_mem_append] at apart
  constructor
  · intro entry member
    exact misses_unfolding_of_ne (apart.2 entry member)
  · intro _ entry member
    rw [follow?_unfolding_of_ne (apart.1 entry member), Option.any_none]

theorem Leaves.insert (leaves : Leaves entries name value) (undotted : isDotted other = false)
    (apart : other ≠ name) (added : Value) : Leaves (entries.insert other added) name value := by
  have single : (unfoldedNames other).head? ≠ some name := by
    rw [unfoldedNames, undotted]
    simpa using apart
  constructor
  · intro entry member
    rcases Entries.mem_of_mem_after_insert apart member with old | rfl
    · exact leaves.later entry old
    · exact misses_unfolding_of_ne single
  · intro shape entry member
    rcases Entries.mem_of_mem_before_insert apart member with old | rfl
    · exact leaves.earlier shape entry old
    · have absent : (unfolding (other, added)).follow? [name] = none :=
        follow?_unfolding_of_ne single
      rw [absent, Option.any_none]

theorem Leaves.insert_self (leaves : Leaves entries name value) (added : Value) :
    Leaves (entries.insert name added) name value := by
  rw [Leaves, Entries.before_insert_self, Entries.after_insert_self]
  exact leaves

theorem get?_expanded_of_leaves (unique : ∀ entry ∈ c.entries, entry.2.UniqueKeys)
    (named : name ≠ "") (undotted : isDotted name = false)
    (stored : c.entries.get? name = some value) (leaves : Leaves c.entries name value) :
    c.expanded.get? name = some value := by
  have nonempty : name.toList ≠ [] := by simpa using named
  apply find?_of_name nonempty
  rw [String.ofList_toList]
  by_cases dotted : c.hasDotted = true
  · have split := Entries.eq_of_get? stored
    have own : (unfolding (name, value)).follow? [name] = some value := by
      rw [unfolding_of_undotted undotted]
      simp [Entries.get?]
    rw [split] at unique
    have put := follow?_foldl_of_settled unique leaves (by simp) own
    rw [← split] at put
    obtain ⟨entries, inner, same, found, reached⟩ := Value.follow?_cons_eq_some put
    rw [Value.object.injEq] at same
    rw [Value.follow?_nil, Option.some.injEq] at reached
    rw [expanded, if_pos dotted, same, found, reached]
  · rw [expanded, if_neg dotted, stored]

end Context

end Docscript

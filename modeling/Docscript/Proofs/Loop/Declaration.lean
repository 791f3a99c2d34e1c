import Docscript.Proofs.Loop.Grammar

set_option autoImplicit false

namespace Docscript

namespace Loop

/-- The names that a loop binds in its scopes. -/
def boundNames : Loop → List String
  | times _ counter => counter.toList
  | range counter _ _ _ => [counter]
  | array item _ index => item :: index.toList
  | object key _ index => key :: index.toList

/-- The names that a loop binds are words of its key that read as names. -/
theorem mem_words_of_mem_boundNames {words : List String} {declared : Loop}
    (declares : Declares words declared) :
    ∀ name ∈ declared.boundNames, name ∈ words ∧ name? name.toList = some name := by
  have listed {lead item link path : String} {index : Option String}
      (named : name? item.toList = some item)
      (indexed : ∀ name ∈ index, name? name.toList = some name) :
      ∀ name ∈ item :: index.toList, name ∈ lead :: item :: link :: path :: indexWords index ∧
        name? name.toList = some name := by
    rw [List.forall_mem_cons]
    refine ⟨⟨by simp, named⟩, fun name member => ?_⟩
    rw [Option.mem_toList] at member
    exact ⟨by simp [mem_indexWords member], indexed name member⟩
  cases declares with
  | times counted => exact nofun
  | timesWith counted named => simpa [boundNames] using named
  | range leads links named first last foremost => simpa [boundNames] using named
  | array leads named indexed plain => exact listed named indexed
  | object leads named indexed plain => exact listed named indexed

theorem plain_of_mem_boundNames {key : String} {declared : Loop}
    (read : parse? key = some declared) :
    ∀ name ∈ declared.boundNames, name ≠ "" ∧ '.' ∉ name.toList ∧
      ∀ c ∈ name.toList, Text.isBlank c = false := by
  intro name member
  obtain ⟨inside, named⟩ :=
    mem_words_of_mem_boundNames (parse?_eq_some_iff.mp read) name member
  obtain ⟨-, nonempty, undotted⟩ := name?_eq_some named
  obtain ⟨part, among, rfl⟩ := List.mem_map.mp inside
  refine ⟨by simpa using nonempty, undotted, ?_⟩
  rw [String.toList_ofList]
  exact Text.isBlank_of_mem_words among

end Loop

end Docscript

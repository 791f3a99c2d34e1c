import Docscript.Loop.Expansion
import Docscript.Proofs.Loop.Rounds

set_option autoImplicit false

namespace Docscript

namespace Expansion

variable {c : Context} {key : String}

theorem take_templates (limit : Nat) (expansion : Expansion) :
    (expansion.take limit).1.map Round.template =
      (expansion.scopes.toList.take limit).map fun scope =>
        Template.compile expansion.options scope expansion.template := by
  have taken : (expansion.take limit).1 =
      (expansion.scopes.take limit).1.map expansion.round := rfl
  rw [taken, Scopes.take_fst, List.map_map]
  rfl

theorem ofDeclaration_of_parse? (options : CompileOptions) (c : Context) {declared : Loop}
    (read : Loop.parse? key = some declared) (template : Value) :
    ofDeclaration options c (.object [(key, template)]) =
      (declared.bind c).map fun scopes => ⟨scopes, template, options⟩ := by
  simp only [ofDeclaration, split, loopOfKey, read, Bind.bind, Except.bind]
  cases declared.bind c <;> rfl

theorem exists_of_ofDeclaration_eq_ok {options : CompileOptions} {declaration : Value}
    {expansion : Expansion} (accepted : ofDeclaration options c declaration = .ok expansion) :
    ∃ key template declared scopes, declaration = .object [(key, template)] ∧
      Loop.parse? key = some declared ∧ declared.bind c = .ok scopes ∧
      expansion = ⟨scopes, template, options⟩ := by
  rw [ofDeclaration] at accepted
  obtain ⟨⟨key, template⟩, single, accepted⟩ := Steps.of_bind_eq_ok accepted
  obtain ⟨declared, read, accepted⟩ := Steps.of_bind_eq_ok accepted
  obtain ⟨scopes, bound, same⟩ := Steps.of_bind_eq_ok accepted
  cases same
  rw [split.eq_def] at single
  rw [loopOfKey] at read
  split at single
  · split at read
    · next found =>
      cases single
      cases read
      exact ⟨key, template, declared, scopes, rfl, found, bound, rfl⟩
    · cases read
  · cases single

theorem ofDeclaration_array (options : CompileOptions) {item path : String}
    {index : Option String} {items : List Value} (template : Value)
    (declared : Loop.parse? key = some (.array item path index))
    (found : c.get? path = some (.array items)) :
    ofDeclaration options c (.object [(key, template)]) =
      .ok ⟨⟨c, .items item index 0 items⟩, template, options⟩ := by
  rw [ofDeclaration_of_parse? options c declared, Loop.bind_array found]
  rfl

end Expansion

end Docscript

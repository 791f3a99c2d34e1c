set_option autoImplicit false

namespace Docscript

namespace Steps

variable {ε α β γ : Type}

theorem of_bind_eq_ok {first : Except ε α} {next : α → Except ε β} {result : β}
    (succeeded : (first >>= next) = .ok result) :
    ∃ value, first = .ok value ∧ next value = .ok result := by
  cases first with
  | error error => cases succeeded
  | ok value => exact ⟨value, rfl, succeeded⟩

theorem of_map_eq_ok {first : Except ε α} {f : α → β} {result : β}
    (succeeded : first.map f = .ok result) : ∃ value, first = .ok value ∧ f value = result := by
  cases first with
  | error error => cases succeeded
  | ok value => exact ⟨value, rfl, Except.ok.inj succeeded⟩

theorem mapM_eq_ok {step : α → Except ε β} {value : α → β} {items : List α}
    (each : ∀ item ∈ items, step item = .ok (value item)) :
    items.mapM step = .ok (items.map value) := by
  induction items with
  | nil => rfl
  | cons item rest ih =>
    rw [List.forall_mem_cons] at each
    rw [List.mapM_cons, each.1, ih each.2]
    rfl

theorem exists_of_mapM_eq_ok {step : α → Except ε β} {items : List α} {values : List β}
    (succeeded : items.mapM step = .ok values) :
    ∀ value ∈ values, ∃ item ∈ items, step item = .ok value := by
  induction items generalizing values with
  | nil =>
    cases succeeded
    exact fun _ member => absurd member List.not_mem_nil
  | cons item rest ih =>
    rw [List.mapM_cons] at succeeded
    obtain ⟨first, own, afterFirst⟩ := of_bind_eq_ok succeeded
    obtain ⟨others, later, same⟩ := of_bind_eq_ok afterFirst
    cases same
    rw [List.forall_mem_cons]
    refine ⟨⟨item, List.mem_cons_self, own⟩, fun value member => ?_⟩
    obtain ⟨source, inside, result⟩ := ih later value member
    exact ⟨source, List.mem_cons_of_mem _ inside, result⟩

/-- Steps may be exchanged for others that are the same on every item that is reached. -/
theorem mapM_congr {first second : α → Except ε β} {items : List α}
    (same : ∀ before item after, items = before ++ item :: after →
      (∀ earlier ∈ before, ∃ value, first earlier = .ok value) → first item = second item) :
    items.mapM first = items.mapM second := by
  induction items with
  | nil => rfl
  | cons item rest ih =>
    have own := same [] item rest rfl fun _ none => absurd none List.not_mem_nil
    rw [List.mapM_cons, List.mapM_cons, ← own]
    cases reached : first item with
    | error error => rfl
    | ok value =>
      have later : rest.mapM first = rest.mapM second := by
        apply ih
        intro before next after split passed
        apply same (item :: before) next after (by rw [split, List.cons_append])
        rw [List.forall_mem_cons]
        exact ⟨⟨value, reached⟩, passed⟩
      rw [later]

theorem mapM_map (step : α → Except ε β) (f : β → γ) (items : List α) :
    (items.mapM fun item => (step item).map f) = (items.mapM step).map (List.map f) := by
  induction items with
  | nil => rfl
  | cons item rest ih =>
    rw [List.mapM_cons, List.mapM_cons, ih]
    cases step item with
    | error error => rfl
    | ok value => cases rest.mapM step <;> rfl

theorem mapM_map_congr {first second : α → Except ε β} (f : β → γ) {items : List α}
    (same : ∀ before item after, items = before ++ item :: after →
      (∀ earlier ∈ before, ∃ value, first earlier = .ok value) → first item = second item) :
    (items.mapM fun item => (first item).map f) = items.mapM fun item => (second item).map f := by
  rw [mapM_map, mapM_map, mapM_congr same]

end Steps

end Docscript

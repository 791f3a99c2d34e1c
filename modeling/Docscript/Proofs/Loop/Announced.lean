import Docscript.Proofs.Loop.Counting
import Docscript.Proofs.Loop.Expansion
import Mathlib.Algebra.Order.Ring.Int

set_option autoImplicit false

namespace Docscript

/-- So many pulls of a source give an item, and the one after them does not. -/
inductive Yields {σ α : Type} (pull : σ → Option (α × σ)) : σ → Nat → Prop where
  | ended {source : σ} (exhausted : pull source = none) : Yields pull source 0
  | pulled {source after : σ} {item : α} {left : Nat} (next : pull source = some (item, after))
      (later : Yields pull after left) : Yields pull source (left + 1)

theorem Yields.unique {σ α : Type} {pull : σ → Option (α × σ)} {source : σ} {left other : Nat}
    (one : Yields pull source left) (two : Yields pull source other) : left = other := by
  induction one generalizing other with
  | ended exhausted =>
    cases two with
    | ended => rfl
    | pulled next _ => rw [exhausted] at next; cases next
  | pulled next _ ih =>
    cases two with
    | ended exhausted => rw [exhausted] at next; cases next
    | pulled also later =>
      rw [next, Option.some.injEq, Prod.mk.injEq] at also
      obtain ⟨-, rfl⟩ := also
      rw [ih later]

namespace Scopes

variable {scopes after : Scopes} {scope : Context}

/-- What is kept from scope to scope is kept by taking any number of them. -/
theorem take_induction {motive : Scopes → Prop}
    (step : ∀ {scopes scope after}, scopes.next? = some (scope, after) → motive scopes →
      motive after) (limit : Nat) (start : motive scopes) : motive (scopes.take limit).2 := by
  rw [take]
  generalize ([] : List Context) = done
  induction limit generalizing scopes done with
  | zero => exact start
  | succ limit ih =>
    rw [takeOnto]
    cases pulled : scopes.next? with
    | none => exact start
    | some pair => exact ih (step pulled start) (pair.1 :: done)

theorem remaining_of_next?_eq_none (ended : scopes.next? = none) : scopes.remaining = 0 := by
  rw [← length_toList, toList_of_next?_eq_none ended, List.length_nil]

theorem remaining_of_next?_eq_some (pulled : scopes.next? = some (scope, after)) :
    scopes.remaining = after.remaining + 1 := by
  rw [← length_toList, ← length_toList, toList_of_next?_eq_some pulled, List.length_cons]

theorem remaining_take (limit : Nat) (scopes : Scopes) :
    (scopes.take limit).2.remaining = scopes.remaining - limit := by
  rw [← length_toList, ← length_toList, toList_take_snd, List.length_drop]

theorem remaining_counter (base : Context) (name : Option String) (next stop : Int64) :
    remaining ⟨base, .counter name next stop⟩ = (stop.toInt - next.toInt).toNat := rfl

theorem yields_remaining (scopes : Scopes) : Yields next? scopes scopes.remaining := by
  generalize count : scopes.remaining = left
  induction left generalizing scopes with
  | zero =>
    cases pulled : scopes.next? with
    | none => exact .ended pulled
    | some pair => rw [remaining_of_next?_eq_some pulled] at count; cases count
  | succ left ih =>
    cases pulled : scopes.next? with
    | none => rw [remaining_of_next?_eq_none pulled] at count; cases count
    | some pair =>
      rw [remaining_of_next?_eq_some pulled] at count
      exact .pulled pulled (ih pair.2 (Nat.succ.inj count))

end Scopes

namespace Loop

/-- What is announced of a number of rounds to come: of a range at most the largest integer. -/
def announced (kind : LoopKind) (left : Nat) : Nat :=
  if kind = .range then min left (2 ^ 63 - 1) else left

theorem sizeHint_counter (base : Context) (name : Option String) (next stop : Int64) :
    Scopes.sizeHint ⟨base, .counter name next stop⟩ =
      min (Scopes.remaining ⟨base, .counter name next stop⟩) (2 ^ 63 - 1) := rfl

theorem sizeHint_items (base : Context) (name : String) (index : Option String) (position : Nat)
    (rest : List Value) :
    Scopes.sizeHint ⟨base, .items name index position rest⟩ =
      Scopes.remaining ⟨base, .items name index position rest⟩ := rfl

variable {kind : LoopKind} {declared : Loop} {c scope : Context} {scopes after : Scopes}

theorem announced_of_succ {left : Nat} (before : left + 1 = announced kind (left + 1)) :
    left = announced kind left := by
  rw [announced] at before ⊢
  split at before
  · next ranged => rw [if_pos ranged]; omega
  · next other => rw [if_neg other]

theorem announced_of_min_succ {left : Nat}
    (before : min (left + 1) (2 ^ 63 - 1) = announced kind (left + 1)) :
    min left (2 ^ 63 - 1) = announced kind left := by
  rw [announced] at before ⊢
  split at before
  · next ranged => rw [if_pos ranged]
  · next other => rw [if_neg other]; omega

theorem sizeHint_of_next? (pulled : scopes.next? = some (scope, after))
    (before : scopes.sizeHint = announced kind scopes.remaining) :
    after.sizeHint = announced kind after.remaining := by
  have fewer := Scopes.remaining_of_next?_eq_some pulled
  obtain ⟨base, cursor⟩ := scopes
  cases cursor with
  | counter name next stop =>
    rw [sizeHint_counter, fewer] at before
    rw [Scopes.next?_counter] at pulled
    split at pulled
    · rw [Option.some.injEq, Prod.mk.injEq] at pulled
      obtain ⟨-, rfl⟩ := pulled
      rw [sizeHint_counter]
      exact announced_of_min_succ before
    · cases pulled
  | items name index position rest =>
    rw [sizeHint_items, fewer] at before
    cases rest with
    | nil => cases pulled
    | cons item rest =>
      rw [Scopes.next?_items_cons, Option.some.injEq, Prod.mk.injEq] at pulled
      obtain ⟨-, rfl⟩ := pulled
      rw [sizeHint_items]
      exact announced_of_succ before

theorem sizeHint_of_bind (bound : declared.bind c = .ok scopes) :
    scopes.sizeHint = announced declared.kind scopes.remaining := by
  cases declared with
  | times count counter =>
    rw [bind] at bound
    split at bound
    · cases bound
    · next n counted =>
      cases bound
      have high := Int64.toInt_le (following n)
      have few : Scopes.remaining ⟨c, .counter counter 1 (following n)⟩ ≤ 2 ^ 63 - 1 := by
        rw [Int64.toInt_maxValue] at high
        rw [Scopes.remaining_counter, Int64.toInt_one]
        omega
      exact Nat.min_eq_left few
  | range counter start stop inclusive =>
    rw [bind] at bound
    split at bound
    · cases bound; rfl
    · cases bound
  | array item path index =>
    rw [bind] at bound
    split at bound
    · cases bound
    · cases bound; rfl
    · cases bound
  | object key path index =>
    rw [bind] at bound
    split at bound
    · cases bound
    · cases bound; rfl
    · cases bound

/-- What there is to say of a source of the rounds of a loop, with so many of them to come. They are
announced exactly, and each pull lowers the announcement by one, unless the loop is a range with
more of them than the largest integer. -/
structure Announces {σ α : Type} (kind : LoopKind) (pull : σ → Option (α × σ)) (hint : σ → Nat)
    (source : σ) (left : Nat) : Prop where
  yields : Yields pull source left
  hint_eq : hint source = announced kind left
  exact_iff : hint source = left ↔ (kind = .range → left ≤ 2 ^ 63 - 1)
  lowered_iff : ∀ item after, pull source = some (item, after) →
    (hint after + 1 = hint source ↔ (kind = .range → left ≤ 2 ^ 63 - 1))

theorem announced_eq_self_iff (kind : LoopKind) (left : Nat) :
    announced kind left = left ↔ (kind = .range → left ≤ 2 ^ 63 - 1) := by
  rw [announced]
  split
  · next ranged => simp [ranged]
  · next other => simp [other]

theorem announced_succ_iff (kind : LoopKind) (left : Nat) :
    announced kind left + 1 = announced kind (left + 1) ↔
      (kind = .range → left + 1 ≤ 2 ^ 63 - 1) := by
  rw [announced, announced]
  split
  · next ranged => simp only [ranged, forall_const]; omega
  · next other => simp [other]

theorem Announces.of_next {σ α : Type} {pull : σ → Option (α × σ)} {hint : σ → Nat} {source : σ}
    {left : Nat} (yields : Yields pull source left) (hinted : hint source = announced kind left)
    (lowered : ∀ item after, pull source = some (item, after) →
      ∃ fewer, left = fewer + 1 ∧ hint after = announced kind fewer) :
    Announces kind pull hint source left := by
  refine ⟨yields, hinted, by rw [hinted, announced_eq_self_iff], fun item after pulled => ?_⟩
  obtain ⟨fewer, rfl, later⟩ := lowered item after pulled
  rw [hinted, later, announced_succ_iff]

theorem announces_scopes (hinted : scopes.sizeHint = announced kind scopes.remaining) :
    Announces kind Scopes.next? Scopes.sizeHint scopes scopes.remaining :=
  .of_next scopes.yields_remaining hinted fun _ after pulled =>
    ⟨after.remaining, Scopes.remaining_of_next?_eq_some pulled, sizeHint_of_next? pulled hinted⟩

theorem yields_expansion {left : Nat} (expansion : Expansion)
    (yields : Yields Scopes.next? expansion.scopes left) :
    Yields Expansion.next? expansion left := by
  generalize start : expansion.scopes = scopes at yields
  induction yields generalizing expansion with
  | ended exhausted =>
    subst start
    exact .ended (by rw [Expansion.next?, exhausted, Option.map_none])
  | pulled next _ ih =>
    subst start
    exact .pulled (by rw [Expansion.next?, next, Option.map_some])
      (ih { expansion with scopes := _ } rfl)

theorem announces_expansion (expansion : Expansion)
    (hinted : expansion.scopes.sizeHint = announced kind expansion.scopes.remaining) :
    Announces kind Expansion.next? Expansion.sizeHint expansion expansion.scopes.remaining := by
  refine .of_next (yields_expansion expansion expansion.scopes.yields_remaining) hinted ?_
  intro round after pulled
  rw [Expansion.next?, Option.map_eq_some_iff] at pulled
  obtain ⟨⟨scope, rest⟩, next, same⟩ := pulled
  rw [Prod.mk.injEq] at same
  obtain ⟨-, rfl⟩ := same
  exact ⟨rest.remaining, Scopes.remaining_of_next?_eq_some next, sizeHint_of_next? next hinted⟩

/-- What the scopes of a loop, and the rounds of its expansions, announce after any number of pulls:
exactly how many are still to come, one less after each pull, unless the loop is a range with more
to come than the largest integer, and then that integer. -/
theorem announces_after_pulls (bound : declared.bind c = .ok scopes) (pulls : Nat) :
    Announces declared.kind Scopes.next? Scopes.sizeHint (scopes.take pulls).2
      (scopes.remaining - pulls) ∧
    ∀ template options, Announces declared.kind Expansion.next? Expansion.sizeHint
      (Expansion.take pulls ⟨scopes, template, options⟩).2 (scopes.remaining - pulls) := by
  have hinted : (scopes.take pulls).2.sizeHint =
      announced declared.kind (scopes.take pulls).2.remaining :=
    Scopes.take_induction sizeHint_of_next? pulls (sizeHint_of_bind bound)
  rw [← Scopes.remaining_take]
  exact ⟨announces_scopes hinted, fun template options => announces_expansion
    ⟨(scopes.take pulls).2, template, options⟩ hinted⟩

/-- A range of more rounds than the largest integer, before its first pull and after it. -/
theorem announces_after_pulls_from_negative :
    let declared : Loop := .range "v" (.literal (-1)) (.literal Int64.maxValue) false
    let scopes : Scopes := ⟨.empty, .counter (some "v") (-1) Int64.maxValue⟩
    declared.bind .empty = .ok scopes ∧
      Announces .range Scopes.next? Scopes.sizeHint (scopes.take 0).2 (2 ^ 63) ∧
      Announces .range Scopes.next? Scopes.sizeHint (scopes.take 1).2 (2 ^ 63 - 1) ∧
      (scopes.take 0).2.sizeHint = 2 ^ 63 - 1 ∧ (scopes.take 1).2.sizeHint = 2 ^ 63 - 1 := by
  intro declared scopes
  have bound : declared.bind .empty = .ok scopes := rfl
  have first := (announces_after_pulls bound 0).1
  have second := (announces_after_pulls bound 1).1
  exact ⟨bound, first, second, first.hint_eq, second.hint_eq⟩

/-- A range announces fewer rounds than there are. -/
theorem not_forall_yields_sizeHint :
    ¬ ∀ (declared : Loop) (c : Context) (scopes : Scopes), declared.bind c = .ok scopes →
      Yields Scopes.next? scopes scopes.sizeHint := by
  intro always
  have yields := always (.range "v" (.literal (-1)) (.literal Int64.maxValue) false) .empty
    ⟨.empty, .counter (some "v") (-1) Int64.maxValue⟩ rfl
  have count := yields.unique (Scopes.yields_remaining _)
  rw [sizeHint_counter, Scopes.remaining_counter] at count
  exact absurd count (by decide)

end Loop

end Docscript

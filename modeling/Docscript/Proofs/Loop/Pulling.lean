import Docscript.Proofs.Loop.Announced

set_option autoImplicit false

namespace Docscript

namespace Scopes

variable {scopes after : Scopes} {scope : Context}

theorem take_of_ended (ended : scopes.next? = none) (limit : Nat) :
    scopes.take limit = ([], scopes) := by
  cases limit with
  | zero => rfl
  | succ limit => rw [take, takeOnto, ended, List.reverse_nil]

theorem takeOnto_snd (done : List Context) (limit : Nat) (scopes : Scopes) :
    (takeOnto done limit scopes).2 = (scopes.take limit).2 := by
  rw [take]
  generalize ([] : List Context) = other
  induction limit generalizing done other scopes with
  | zero => rfl
  | succ limit ih =>
    rw [takeOnto, takeOnto]
    cases scopes.next? with
    | none => rfl
    | some pair => exact ih (pair.1 :: done) pair.2 (pair.1 :: other)

theorem take_succ_snd (pulled : scopes.next? = some (scope, after)) (limit : Nat) :
    (scopes.take (limit + 1)).2 = (after.take limit).2 := by
  rw [take, takeOnto, pulled]
  exact takeOnto_snd [scope] limit after

theorem take_add_snd (first more : Nat) (scopes : Scopes) :
    (scopes.take (first + more)).2 = ((scopes.take first).2.take more).2 := by
  induction first generalizing scopes with
  | zero => rw [Nat.zero_add]; rfl
  | succ first ih =>
    rw [Nat.add_right_comm]
    cases pulled : scopes.next? with
    | none => rw [take_of_ended pulled, take_of_ended pulled, take_of_ended pulled]
    | some pair => rw [take_succ_snd pulled, take_succ_snd pulled, ih]

/-- Pulls after one that yields nothing change nothing. -/
theorem take_snd_of_ended {pulls : Nat} (ended : (scopes.take pulls).2.next? = none) (more : Nat) :
    (scopes.take (pulls + more)).2 = (scopes.take pulls).2 := by
  rw [take_add_snd, take_of_ended ended]

/-- A counter keeps its context, its variable and its end, and does not go back. -/
theorem exists_take_counter (c : Context) (name : Option String) (start stop : Int64)
    (pulls : Nat) :
    ∃ next : Int64, (take pulls ⟨c, .counter name start stop⟩).2 = ⟨c, .counter name next stop⟩ ∧
      start.toInt ≤ next.toInt := by
  refine take_induction (motive := fun scopes => ∃ next : Int64,
    scopes = ⟨c, .counter name next stop⟩ ∧ start.toInt ≤ next.toInt) ?_ pulls
    ⟨start, rfl, le_refl _⟩
  rintro _ scope after pulled ⟨next, rfl, order⟩
  rw [next?_counter] at pulled
  split at pulled
  · next before =>
    rw [Option.some.injEq, Prod.mk.injEq] at pulled
    obtain ⟨-, rfl⟩ := pulled
    refine ⟨next + 1, rfl, ?_⟩
    rw [toInt_succ_of_lt before]
    omega
  · cases pulled

/-- What there is to say of a counter, pull by pull. -/
structure CountsUp (c : Context) (name : Option String) (start stop : Int64) (scopes : Scopes) :
    Prop where
  /-- Before the end a pull yields as many as the start and the pulls before it, and the counter is
  increased by exactly one. -/
  advances : ∀ pulls : Nat, start.toInt + pulls < stop.toInt →
    ∃ next : Int64, (scopes.take pulls).2 = ⟨c, .counter name next stop⟩ ∧
      next.toInt = start.toInt + pulls ∧ (next + 1).toInt = next.toInt + 1 ∧
      (scopes.take pulls).2.next? =
        some (c.extend (counted name (start.toInt + pulls)), ⟨c, .counter name (next + 1) stop⟩)
  ends : ∀ pulls : Nat, stop.toInt ≤ start.toInt + pulls → (scopes.take pulls).2.next? = none
  stays : ∀ pulls : Nat, (scopes.take pulls).2.next? = none →
    ∀ more, (scopes.take (pulls + more)).2 = (scopes.take pulls).2 ∧
      (scopes.take (pulls + more)).2.next? = none

theorem countsUp_counter (c : Context) (name : Option String) (start stop : Int64) :
    CountsUp c name start stop ⟨c, .counter name start stop⟩ := by
  -- How far the counter got follows from how many scopes are left.
  have place (pulls : Nat) := exists_take_counter c name start stop pulls
  have left (pulls : Nat) := remaining_take pulls ⟨c, .counter name start stop⟩
  refine ⟨fun pulls before => ?_, fun pulls reached => ?_, fun pulls ended more => ?_⟩
  · obtain ⟨next, here, order⟩ := place pulls
    have fewer := left pulls
    rw [here, remaining_counter, remaining_counter] at fewer
    have reached : next.toInt = start.toInt + pulls := by omega
    have room : next < stop := Int64.lt_iff_toInt_lt.mpr (by omega)
    refine ⟨next, here, reached, toInt_succ_of_lt room, ?_⟩
    rw [here, next?_counter, if_pos room, reached]
  · obtain ⟨next, here, order⟩ := place pulls
    have fewer := left pulls
    rw [here, remaining_counter, remaining_counter] at fewer
    have full : ¬ next < stop := by
      rw [Int64.lt_iff_toInt_lt]
      omega
    rw [here, next?_counter, if_neg full]
  · have same := take_snd_of_ended ended more
    exact ⟨same, by rw [same, ended]⟩

end Scopes

namespace Loop

/-- The integer that a counted loop starts from. -/
def start? (c : Context) : Loop → Option Int64
  | times _ _ => some 1
  | range _ start _ _ => start.resolve? c
  | array _ _ _ => none
  | object _ _ _ => none

variable {declared : Loop} {c : Context} {scopes : Scopes}

theorem exists_counter_of_bind (bound : declared.bind c = .ok scopes)
    (counted : declared.kind = .times ∨ declared.kind = .range) :
    ∃ name start stop, declared.start? c = some start ∧ scopes = ⟨c, .counter name start stop⟩ := by
  cases declared with
  | times count counter =>
    rw [bind] at bound
    split at bound
    · cases bound
    · cases bound
      exact ⟨_, _, _, rfl, rfl⟩
  | range counter start stop inclusive =>
    rw [bind] at bound
    split at bound
    · next starts _ =>
      cases bound
      exact ⟨_, _, _, starts, rfl⟩
    · cases bound
  | array item path index => simp [kind] at counted
  | object key path index => simp [kind] at counted

/-- Counted loops are safe for whatever bounds. From its start on the counter is increased by one in
each pull before its end, without leaving the integers of 64 bits; then, and in all later pulls, it
yields nothing and stays as it is. -/
theorem counters_stay_in_range (bound : declared.bind c = .ok scopes)
    (counted : declared.kind = .times ∨ declared.kind = .range) :
    ∃ name start stop, declared.start? c = some start ∧
      scopes = ⟨c, .counter name start stop⟩ ∧ scopes.CountsUp c name start stop := by
  obtain ⟨name, start, stop, starts, rfl⟩ := exists_counter_of_bind bound counted
  exact ⟨name, start, stop, starts, rfl, Scopes.countsUp_counter c name start stop⟩

/-- A range up to the largest integer: its counter reaches that integer and is not increased any
more. -/
theorem counters_stay_in_range_at_largest :
    let last := Int64.maxValue
    let declared : Loop := .range "v" (.literal (last - 1)) (.literal last) true
    let scopes : Scopes := ⟨.empty, .counter (some "v") (last - 1) last⟩
    declared.bind .empty = .ok scopes ∧ declared.kind = .range ∧
      scopes.next? = some (Context.empty.extend [("v", .int (2 ^ 63 - 2))],
        ⟨.empty, .counter (some "v") last last⟩) ∧
      ∀ more, (scopes.take (1 + more)).2 = ⟨.empty, .counter (some "v") last last⟩ ∧
        (scopes.take (1 + more)).2.next? = none := by
  intro last declared scopes
  have bound : declared.bind .empty = .ok scopes := rfl
  obtain ⟨name, start, stop, -, same, counts⟩ := counters_stay_in_range bound (.inr rfl)
  rw [Scopes.mk.injEq, Cursor.counter.injEq] at same
  obtain ⟨-, rfl, rfl, rfl⟩ := same
  obtain ⟨next, here, -, -, pulled⟩ := counts.advances 0 (by decide)
  have start : (scopes.take 0).2 = scopes := rfl
  rw [start] at here pulled
  rw [Scopes.mk.injEq, Cursor.counter.injEq] at here
  obtain ⟨-, -, rfl, -⟩ := here
  have increased : last - 1 + 1 = last := by decide
  have value : (last - 1).toInt + (0 : Nat) = 2 ^ 63 - 2 := by decide
  rw [increased, value] at pulled
  have reached : (scopes.take 1).2 = ⟨.empty, .counter (some "v") last last⟩ :=
    Scopes.take_succ_snd pulled 0
  have ended := counts.stays 1 (counts.ends 1 (by decide))
  rw [reached] at ended
  exact ⟨bound, rfl, pulled, ended⟩

end Loop

end Docscript

import Docscript.Proofs.Context.Lookup
import Docscript.Proofs.Loop.Rounds

set_option autoImplicit false

namespace Docscript

namespace Bound

theorem resolve?_path {c : Context} {path : String} {n : Int64}
    (found : c.get? path = some (.int n.toInt)) : (Bound.path path).resolve? c = some n := by
  have held : Value.toInt64? (.int n.toInt) = some n := Text.int64?_eq_some_iff.mpr rfl
  rw [resolve?, found, Option.bind_some, held]

end Bound

namespace Scopes

/-- The scopes to come lay one variable over a context: the members of a set of integers, each once
and in ascending order. -/
def Counts (scopes : Scopes) (c : Context) (name : String) (members : Int → Prop) : Prop :=
  ∃ ms : List Int, ms.Pairwise (· < ·) ∧ (∀ m, m ∈ ms ↔ members m) ∧
    ∀ limit, (scopes.take limit).1 = (ms.take limit).map fun m => c.extend [(name, .int m)]

theorem counts_counter (c : Context) (name : String) (next stop : Int64) :
    Counts ⟨c, .counter (some name) next stop⟩ c name
      (fun m => next.toInt ≤ m ∧ m < stop.toInt) := by
  refine ⟨Int.range next.toInt stop.toInt, ?_, fun _ => Int.mem_range_iff, fun limit => ?_⟩
  · rw [Int.range, List.pairwise_map]
    exact List.pairwise_lt_range.imp fun order => by omega
  · rw [take_fst, toList_counter, List.map_take]
    rfl

theorem Counts.congr {scopes : Scopes} {c : Context} {name : String}
    {first second : Int → Prop} (counts : scopes.Counts c name first)
    (same : ∀ m, first m ↔ second m) : scopes.Counts c name second := by
  obtain ⟨ms, ascending, exact, taken⟩ := counts
  exact ⟨ms, ascending, fun m => (exact m).trans (same m), taken⟩

/-- Scopes count one set only: each scope shows the integer it binds. -/
theorem Counts.unique {scopes : Scopes} {c : Context} {name : String} {first second : Int → Prop}
    (named : name ≠ "") (one : scopes.Counts c name first) (other : scopes.Counts c name second)
    (m : Int) : first m ↔ second m := by
  obtain ⟨ms, -, exactMs, takenMs⟩ := one
  obtain ⟨ns, -, exactNs, takenNs⟩ := other
  have shown : ∀ m n : Int,
      c.extend [(name, .int m)] = c.extend [(name, .int n)] → m = n := by
    intro m n same
    have read := congrArg (·.get? name) same
    simp only [Context.get?_extend_self named] at read
    simpa [Value.int] using read
  have taken := (takenMs (ms.length + ns.length)).symm.trans (takenNs (ms.length + ns.length))
  rw [List.take_of_length_le (by omega), List.take_of_length_le (by omega)] at taken
  have same : ms = ns := (List.map_inj_right shown).mp taken
  rw [← exactMs, ← exactNs, same]

end Scopes

namespace Loop

theorem toInt_following (n : Int64) :
    (following n).toInt = if n = Int64.maxValue then n.toInt else n.toInt + 1 := by
  rw [following]
  split
  · rfl
  · next other =>
    have high := Int64.toInt_le n
    have apart : n.toInt ≠ Int64.maxValue.toInt := fun same => other (Int64.toInt_inj.mp same)
    have below : n < Int64.maxValue := by
      rw [Int64.lt_iff_toInt_lt]
      omega
    exact Scopes.toInt_succ_of_lt below

/-- Below the integer that follows a bound are the integers up to the bound, without the largest. -/
theorem lt_following_iff (n : Int64) (m : Int) :
    m < (following n).toInt ↔ m ≤ n.toInt ∧ m < Int64.maxValue.toInt := by
  have high := Int64.toInt_le n
  rw [toInt_following]
  split
  · next last =>
    subst last
    omega
  · next other =>
    have apart : n.toInt ≠ Int64.maxValue.toInt := fun same => other (Int64.toInt_inj.mp same)
    omega

variable {c : Context} {name : String} {first last count : Bound} {a b n : Int64}

theorem counts_following (c : Context) (name : String) (a b : Int64) :
    Scopes.Counts ⟨c, .counter (some name) a (following b)⟩ c name
      (fun m => a.toInt ≤ m ∧ m ≤ b.toInt ∧ m < Int64.maxValue.toInt) := by
  apply (Scopes.counts_counter c name a (following b)).congr
  intro m
  rw [lt_following_iff]

/-- Leaving out the largest integer matters exactly if the end is that integer. -/
theorem counts_following_iff (c : Context) (named : name ≠ "") (a b : Int64) :
    Scopes.Counts ⟨c, .counter (some name) a (following b)⟩ c name
      (fun m => a.toInt ≤ m ∧ m ≤ b.toInt) ↔ b ≠ Int64.maxValue := by
  have counted := counts_following c name a b
  constructor
  · rintro claimed rfl
    have last := (claimed.unique named counted Int64.maxValue.toInt).mp
      ⟨Int64.toInt_le a, le_refl _⟩
    omega
  · intro other
    apply counted.congr
    intro m
    have high := Int64.toInt_le b
    have apart : b.toInt ≠ Int64.maxValue.toInt := fun same => other (Int64.toInt_inj.mp same)
    omega

/-- What counted loops bind. A range with its end binds the integers from its start to its end, a
range without its end those below its end, a count those from one to the count; where the end to be
included is the largest integer, it alone is missing. -/
theorem counted_loops (named : name ≠ "") (starts : first.resolve? c = some a)
    (stops : last.resolve? c = some b) (counted : count.resolve? c = some n) :
    (∃ scopes, (Loop.range name first last true).bind c = .ok scopes ∧
      scopes.Counts c name
        (fun m => a.toInt ≤ m ∧ m ≤ b.toInt ∧ m < Int64.maxValue.toInt) ∧
      (scopes.Counts c name (fun m => a.toInt ≤ m ∧ m ≤ b.toInt) ↔ b ≠ Int64.maxValue)) ∧
    (∃ scopes, (Loop.range name first last false).bind c = .ok scopes ∧
      scopes.Counts c name (fun m => a.toInt ≤ m ∧ m < b.toInt)) ∧
    (∃ scopes, (Loop.times count (some name)).bind c = .ok scopes ∧
      scopes.Counts c name (fun m => 1 ≤ m ∧ m ≤ n.toInt ∧ m < Int64.maxValue.toInt) ∧
      (scopes.Counts c name (fun m => 1 ≤ m ∧ m ≤ n.toInt) ↔ n ≠ Int64.maxValue)) ∧
    ∀ m : Int, (c.extend [(name, .int m)]).get? name = some (.int m) := by
  refine ⟨⟨⟨c, .counter (some name) a (following b)⟩, ?_, ?_, ?_⟩,
    ⟨⟨c, .counter (some name) a b⟩, ?_, ?_⟩,
    ⟨⟨c, .counter (some name) 1 (following n)⟩, ?_, ?_, ?_⟩, ?_⟩
  · simp only [bind, starts, stops, if_true]
  · exact counts_following c name a b
  · exact counts_following_iff c named a b
  · simp [bind, starts, stops]
  · exact Scopes.counts_counter c name a b
  · simp only [bind, counted]
  · exact counts_following c name 1 n
  · exact counts_following_iff c named 1 n
  · intro m
    rw [Context.get?_extend_self named]

/-- Both ends of a range and a count, one of each as an integer and one as a path. -/
theorem counted_loops_from_negative :
    let c : Context := ⟨[("n", .int 3)]⟩
    "v" ≠ "" ∧ (Bound.literal (-1)).resolve? c = some (-1) ∧
      (Bound.path "n").resolve? c = some 3 ∧
      ∃ scopes, (Loop.range "v" (.literal (-1)) (.path "n") true).bind c = .ok scopes ∧
        scopes.Counts c "v" (fun m => -1 ≤ m ∧ m ≤ 3) := by
  intro c
  have path : (Bound.path "n").resolve? c = some 3 :=
    Bound.resolve?_path (Context.find?_of_name (by decide) rfl)
  have start : (Bound.literal (-1)).resolve? c = some (-1) := rfl
  have named : "v" ≠ "" := by decide
  obtain ⟨⟨scopes, bound, -, counts⟩, -⟩ := counted_loops named start path path
  exact ⟨named, start, path, scopes, bound, counts.mpr (by decide)⟩

/-- A range up to and with the largest integer does not bind it. -/
theorem not_forall_counts_inclusive :
    ¬ ∀ (c : Context) (name : String) (first last : Bound) (a b : Int64), name ≠ "" →
      first.resolve? c = some a → last.resolve? c = some b →
        ∃ scopes, (Loop.range name first last true).bind c = .ok scopes ∧
          scopes.Counts c name (fun m => a.toInt ≤ m ∧ m ≤ b.toInt) := by
  intro always
  obtain ⟨scopes, bound, counts⟩ := always Context.empty "v"
    (.literal (Int64.maxValue - 1)) (.literal Int64.maxValue) (Int64.maxValue - 1)
    Int64.maxValue (by decide) rfl rfl
  simp only [bind, Bound.resolve?, if_true, Except.ok.injEq] at bound
  subst bound
  exact (counts_following_iff Context.empty (by decide) _ _).mp counts rfl

end Loop

end Docscript

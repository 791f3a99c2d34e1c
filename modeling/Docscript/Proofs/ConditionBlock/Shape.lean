import Docscript.Proofs.ConditionBlock.Selection
import Docscript.Proofs.Context.Lookup
import Mathlib.Data.List.Forall2

set_option autoImplicit false

namespace Docscript

namespace ConditionKey

/-- The expression of a condition; an `else` has none. -/
def expression? : ConditionKey → Option String
  | ifTrue expression => some expression
  | elseIf expression => some expression
  | otherwise => none

/-- The test of a branch with the key. -/
def test? (role : ConditionKey) : Except Error (Option Expression) :=
  match role.expression? with
  | some expression => (Expression.parse expression).map some
  | none => .ok none

theorem test?_of_expression? {role : ConditionKey} {expression : String}
    (expressed : role.expression? = some expression) :
    role.test? = (Expression.parse expression).map some := by
  rw [test?, expressed]

end ConditionKey

namespace ConditionBlock

open Steps (of_bind_eq_ok)

variable {β : Type} {stage next : Stage} {role : ConditionKey} {key : String} {body : β}
  {entries rest : List (String × β)} {branches : List (Branch β)} {roles : List ConditionKey}

/-- The stage after a key, if the key may stand where it does. -/
def advance? : Stage → ConditionKey → Option Stage
  | .start, .ifTrue _ => some .opened
  | .opened, .elseIf _ => some .opened
  | .opened, .otherwise => some .closed
  | _, _ => none

/-- The rows of keys that complete a block from a stage on. -/
def Completes : Stage → List ConditionKey → Prop
  | stage, [] => stage ≠ .start
  | stage, role :: roles => ∃ next, advance? stage role = some next ∧ Completes next roles

theorem completes_closed_iff : Completes .closed roles ↔ roles = [] := by
  cases roles <;> simp [Completes, advance?]

/-- After the `if`, any number of `else if` and at most one `else` at the end. -/
theorem completes_opened_iff :
    Completes .opened roles ↔ ∃ (others : List String) (final : List ConditionKey),
      roles = others.map .elseIf ++ final ∧ (final = [] ∨ final = [.otherwise]) := by
  induction roles with
  | nil =>
    constructor
    · intro _
      exact ⟨[], [], rfl, .inl rfl⟩
    · intro _
      exact Stage.noConfusion
  | cons role rest ih =>
    rw [Completes]
    constructor
    · rintro ⟨next, advanced, completed⟩
      cases role with
      | ifTrue expression => cases advanced
      | elseIf expression =>
        cases advanced
        obtain ⟨others, final, rfl, ended⟩ := ih.mp completed
        exact ⟨expression :: others, final, rfl, ended⟩
      | otherwise =>
        cases advanced
        obtain rfl := completes_closed_iff.mp completed
        exact ⟨[], [.otherwise], rfl, .inr rfl⟩
    · rintro ⟨others, final, whole, ended⟩
      cases others with
      | nil =>
        rcases ended with rfl | rfl
        · cases whole
        · cases whole
          exact ⟨.closed, rfl, completes_closed_iff.mpr rfl⟩
      | cons expression others =>
        cases whole
        exact ⟨.opened, rfl, ih.mpr ⟨others, final, rfl, ended⟩⟩

theorem completes_start_iff :
    Completes .start roles ↔ ∃ expression rest, roles = .ifTrue expression :: rest ∧
      Completes .opened rest := by
  cases roles with
  | nil => simp [Completes]
  | cons role rest => cases role <;> simp [Completes, advance?]

theorem branches?_of_advance (read : ConditionKey.parse? key = some role)
    (advanced : advance? stage role = some next) (body : β) (rest : List (String × β)) :
    branches? stage ((key, body) :: rest) = (do
      let test ← role.test?
      let others ← branches? next rest
      .ok (⟨test, body⟩ :: others)) := by
  have tested (expression : String) (later : Except Error (List (Branch β))) :
      (do
        let test ← Expression.parse expression
        let others ← later
        .ok (⟨some test, body⟩ :: others) : Except Error (List (Branch β))) = (do
        let test ← (Expression.parse expression).map some
        let others ← later
        .ok (⟨test, body⟩ :: others)) := by
    cases Expression.parse expression <;> rfl
  simp only [branches?, read]
  cases role with
  | ifTrue expression =>
    cases stage <;> cases advanced
    exact tested expression _
  | elseIf expression =>
    cases stage <;> cases advanced
    exact tested expression _
  | otherwise =>
    cases stage <;> cases advanced
    rfl

theorem branches?_of_stuck
    (stuck : ∀ role, ConditionKey.parse? key = some role → advance? stage role = none) (body : β)
    (rest : List (String × β)) : ∃ error, branches? stage ((key, body) :: rest) = .error error := by
  simp only [branches?]
  cases read : ConditionKey.parse? key with
  | none => exact ⟨_, rfl⟩
  | some role =>
    have refused := stuck role read
    cases role with
    | ifTrue expression =>
      cases stage with
      | start => cases refused
      | opened => exact ⟨_, rfl⟩
      | closed => exact ⟨_, rfl⟩
    | elseIf expression =>
      cases stage with
      | start => exact ⟨_, rfl⟩
      | opened => cases refused
      | closed => exact ⟨_, rfl⟩
    | otherwise =>
      cases stage with
      | start => exact ⟨_, rfl⟩
      | opened => cases refused
      | closed => exact ⟨_, rfl⟩

/-- What one entry of a block is: a key that may stand where it does and whose expression parses. -/
theorem branches?_cons_eq_ok_iff :
    branches? stage ((key, body) :: rest) = .ok branches ↔
      ∃ role next test others, ConditionKey.parse? key = some role ∧
        advance? stage role = some next ∧ role.test? = .ok test ∧
        branches? next rest = .ok others ∧ branches = ⟨test, body⟩ :: others := by
  constructor
  · intro formed
    by_cases stuck : ∀ role, ConditionKey.parse? key = some role → advance? stage role = none
    · obtain ⟨error, refused⟩ := branches?_of_stuck stuck body rest
      rw [refused] at formed
      cases formed
    · simp only [not_forall, ← ne_eq, Option.ne_none_iff_exists'] at stuck
      obtain ⟨role, read, next, advanced⟩ := stuck
      rw [branches?_of_advance read advanced] at formed
      obtain ⟨test, tested, afterTest⟩ := of_bind_eq_ok formed
      obtain ⟨others, later, same⟩ := of_bind_eq_ok afterTest
      cases same
      exact ⟨role, next, test, others, read, advanced, tested, later, rfl⟩
  · rintro ⟨role, next, test, others, read, advanced, tested, later, rfl⟩
    rw [branches?_of_advance read advanced, tested, later]
    rfl

/-- A row of entries has branches exactly if its keys complete a block and each has a test. -/
theorem exists_branches?_iff :
    (∃ branches, branches? stage entries = .ok branches) ↔
      ∃ roles, entries.map (ConditionKey.parse? ·.1) = roles.map some ∧ Completes stage roles ∧
        ∀ role ∈ roles, ∃ test, role.test? = .ok test := by
  induction entries generalizing stage with
  | nil =>
    rw [branches?]
    constructor
    · rintro ⟨branches, formed⟩
      split at formed
      · cases formed
      · next under => exact ⟨[], rfl, under, List.forall_mem_nil _⟩
    · rintro ⟨roles, none, completed, -⟩
      obtain rfl : roles = [] := List.map_eq_nil_iff.mp none.symm
      exact ⟨[], if_neg completed⟩
  | cons entry rest ih =>
    obtain ⟨key, body⟩ := entry
    constructor
    · rintro ⟨branches, formed⟩
      obtain ⟨role, next, test, others, read, advanced, tested, later, -⟩ :=
        branches?_cons_eq_ok_iff.mp formed
      obtain ⟨roles, listed, completed, each⟩ := ih.mp ⟨others, later⟩
      refine ⟨role :: roles, ?_, ⟨next, advanced, completed⟩,
        List.forall_mem_cons.mpr ⟨⟨test, tested⟩, each⟩⟩
      rw [List.map_cons, List.map_cons, read, listed]
    · rintro ⟨roles, listed, completed, each⟩
      cases roles with
      | nil => cases listed
      | cons role roles =>
        rw [List.map_cons, List.map_cons, List.cons.injEq] at listed
        rw [List.forall_mem_cons] at each
        obtain ⟨next, advanced, completed⟩ := completed
        obtain ⟨test, tested⟩ := each.1
        obtain ⟨others, later⟩ := ih.mpr ⟨roles, listed.2, completed, each.2⟩
        exact ⟨_, branches?_cons_eq_ok_iff.mpr
          ⟨role, next, test, others, listed.1, advanced, tested, later, rfl⟩⟩

/-- The branch of an entry: its body, and the test of its key. -/
structure Reads (entry : String × β) (branch : Branch β) : Prop where
  body_eq : branch.body = entry.2
  test_eq : ∃ role, ConditionKey.parse? entry.1 = some role ∧ role.test? = .ok branch.test

theorem reads_of_branches?_eq_ok (formed : branches? stage entries = .ok branches) :
    List.Forall₂ Reads entries branches := by
  induction entries generalizing stage branches with
  | nil =>
    rw [branches?] at formed
    split at formed
    · cases formed
    · cases formed
      exact .nil
  | cons entry rest ih =>
    obtain ⟨key, body⟩ := entry
    obtain ⟨role, next, test, others, read, -, tested, later, rfl⟩ :=
      branches?_cons_eq_ok_iff.mp formed
    exact .cons ⟨rfl, role, read, tested⟩ (ih later)

/-- A key whose branch is taken: an `else`, or a condition whose expression is true. -/
def Holds (c : Context) (key : String) : Prop :=
  ∃ role, ConditionKey.parse? key = some role ∧
    ∀ expression, role.expression? = some expression →
      Expression.evaluate expression c = .ok true

/-- A key whose branch is passed over: a condition whose expression is false. -/
def Fails (c : Context) (key : String) : Prop :=
  ∃ role expression, ConditionKey.parse? key = some role ∧
    role.expression? = some expression ∧ Expression.evaluate expression c = .ok false

theorem Reads.passes_iff {entry : String × β} {branch : Branch β} (reads : Reads entry branch)
    (c : Context) :
    (passes c branch = true ↔ Holds c entry.1) ∧ (passes c branch = false ↔ Fails c entry.1) := by
  obtain ⟨role, read, tested⟩ := reads.test_eq
  rw [Holds, Fails, passes]
  cases expressed : role.expression? with
  | none =>
    rw [ConditionKey.test?, expressed, Except.ok.injEq] at tested
    simp [← tested, read, expressed]
  | some expression =>
    rw [ConditionKey.test?_of_expression? expressed] at tested
    obtain ⟨test, parsed, same⟩ := Steps.of_map_eq_ok tested
    have evaluated : Expression.evaluate expression c = .ok (test.eval c) := by
      rw [Expression.evaluate, parsed]
      rfl
    simp [← same, read, expressed, evaluated]

theorem find?_passes_eq_some_iff (read : List.Forall₂ Reads entries branches) (c : Context) :
    (branches.find? (passes c)).map (·.body) = some body ↔
      ∃ before key after, entries = before ++ (key, body) :: after ∧ Holds c key ∧
        ∀ entry ∈ before, Fails c entry.1 := by
  induction read with
  | nil => simp
  | @cons entry branch rest others first _ ih =>
    obtain ⟨name, held⟩ := entry
    obtain ⟨holds, fails⟩ := first.passes_iff c
    cases passed : passes c branch with
    | true =>
      rw [List.find?_cons_of_pos passed, Option.map_some, Option.some.injEq, first.body_eq]
      constructor
      · rintro rfl
        exact ⟨[], name, rest, rfl, holds.mp passed, List.forall_mem_nil _⟩
      · rintro ⟨before, key, after, whole, -, early⟩
        cases before with
        | nil =>
          cases whole
          rfl
        | cons entry before =>
          cases whole
          have failed := fails.mpr (List.forall_mem_cons.mp early).1
          rw [passed] at failed
          cases failed
    | false =>
      rw [List.find?_cons_of_neg (by simp [passed]), ih]
      constructor
      · rintro ⟨before, key, after, rfl, taken, early⟩
        exact ⟨(name, held) :: before, key, after, rfl, taken,
          List.forall_mem_cons.mpr ⟨fails.mp passed, early⟩⟩
      · rintro ⟨before, key, after, whole, taken, early⟩
        cases before with
        | nil =>
          cases whole
          have holding := holds.mpr taken
          rw [passed] at holding
          cases holding
        | cons entry before =>
          cases whole
          exact ⟨before, key, after, rfl, taken, (List.forall_mem_cons.mp early).2⟩

theorem find?_passes_eq_none_iff (read : List.Forall₂ Reads entries branches) (c : Context) :
    (branches.find? (passes c)).map (·.body) = none ↔ ∀ entry ∈ entries, Fails c entry.1 := by
  induction read with
  | nil => simp
  | @cons entry branch rest others first _ ih =>
    obtain ⟨-, fails⟩ := first.passes_iff c
    rw [List.forall_mem_cons, ← fails, ← ih]
    cases passed : passes c branch with
    | true => simp [passed]
    | false => rw [List.find?_cons_of_neg (by simp [passed])]; simp

theorem exists_test?_iff {expression : String} (expressed : role.expression? = some expression) :
    (∃ test, role.test? = .ok test) ↔ ∃ test, Expression.parse expression = .ok test := by
  rw [ConditionKey.test?_of_expression? expressed]
  cases Expression.parse expression <;> simp [Except.map]

/-- A row of entries is a block exactly if its keys are one `if`, any number of `else if` and at
most one `else` at the end, all with expressions that parse. The body that is selected is that of
the first entry with an `else` or a true expression; nothing is selected exactly if every entry has
an expression that is false. -/
theorem ofEntries_accepts_and_selects (entries : List (String × β)) :
    ((∃ block, ofEntries entries = .ok block) ↔
      ∃ (expression : String) (others : List String) (final : List ConditionKey),
        entries.map (ConditionKey.parse? ·.1) =
          (ConditionKey.ifTrue expression :: others.map ConditionKey.elseIf ++ final).map some ∧
        (final = [] ∨ final = [.otherwise]) ∧
        ∀ text ∈ expression :: others, ∃ test, Expression.parse text = .ok test) ∧
    ∀ block, ofEntries entries = .ok block → ∀ c : Context,
      (∀ body, block.select c = some body ↔
        ∃ before key after, entries = before ++ (key, body) :: after ∧ Holds c key ∧
          ∀ entry ∈ before, Fails c entry.1) ∧
      (block.select c = none ↔ ∀ entry ∈ entries, Fails c entry.1) := by
  constructor
  · have whole : (∃ block, ofEntries entries = .ok block) ↔
        ∃ branches, branches? .start entries = .ok branches := by
      rw [ofEntries]
      cases branches? .start entries <;> simp [Except.map]
    rw [whole, exists_branches?_iff]
    constructor
    · rintro ⟨roles, listed, completed, each⟩
      obtain ⟨expression, rest, rfl, opened⟩ := completes_start_iff.mp completed
      obtain ⟨others, final, rfl, ended⟩ := completes_opened_iff.mp opened
      refine ⟨expression, others, final, listed, ended, ?_⟩
      rw [List.forall_mem_cons, List.forall_mem_append, List.forall_mem_map] at each
      rw [List.forall_mem_cons]
      exact ⟨(exists_test?_iff rfl).mp each.1,
        fun text member => (exists_test?_iff rfl).mp (each.2.1 text member)⟩
    · rintro ⟨expression, others, final, listed, ended, each⟩
      refine ⟨_, listed, completes_start_iff.mpr ⟨expression, _, rfl,
        completes_opened_iff.mpr ⟨others, final, rfl, ended⟩⟩, ?_⟩
      rw [List.forall_mem_cons] at each
      rw [List.cons_append, List.forall_mem_cons, List.forall_mem_append, List.forall_mem_map]
      refine ⟨(exists_test?_iff rfl).mpr each.1,
        fun text member => (exists_test?_iff rfl).mpr (each.2 text member), ?_⟩
      rcases ended with rfl | rfl
      · exact List.forall_mem_nil _
      · exact List.forall_mem_singleton.mpr ⟨none, rfl⟩
  · intro block formed c
    obtain ⟨branches, made, rfl⟩ := Steps.of_map_eq_ok formed
    have read := reads_of_branches?_eq_ok made
    exact ⟨fun body => find?_passes_eq_some_iff read c, find?_passes_eq_none_iff read c⟩

/-- A block of three branches, of which the second and the last have the same body. -/
theorem ofEntries_accepts_and_selects_of_three :
    let entries : List (String × Nat) := [("if a", 1), (" else if  b", 2), ("else", 2)]
    let c : Context := ⟨[("a", .bool false), ("b", .bool true)]⟩
    ∃ block, ofEntries entries = .ok block ∧ block.select c = some 2 := by
  intro entries c
  have truth (name : String) (parsed : Expression.parse name = .ok (.truthy (.word name)))
      (named : name ≠ "") (value : Value) (stored : c.entries.get? name = some value) :
      Expression.evaluate name c = .ok value.truthy := by
    rw [Expression.evaluate, parsed]
    have found := Context.get?_of_stored named stored
    simp only [Except.map, Expression.eval, Operand.truthy, found]
  have first : ConditionKey.parse? "if a" = some (.ifTrue "a") := by decide
  have second : ConditionKey.parse? " else if  b" = some (.elseIf "b") := by decide
  have last : ConditionKey.parse? "else" = some .otherwise := by decide
  have listed : entries.map (ConditionKey.parse? ·.1) =
      (ConditionKey.ifTrue "a" :: ["b"].map ConditionKey.elseIf ++
        [ConditionKey.otherwise]).map some := by
    simp [entries, first, second, last]
  obtain ⟨accepts, selects⟩ := ofEntries_accepts_and_selects entries
  have parsed : ∀ text ∈ "a" :: ["b"], ∃ test, Expression.parse text = .ok test := by
    rw [List.forall_mem_cons, List.forall_mem_singleton]
    exact ⟨⟨_, rfl⟩, ⟨_, rfl⟩⟩
  obtain ⟨block, formed⟩ := accepts.mpr ⟨"a", ["b"], [.otherwise], listed, .inr rfl, parsed⟩
  have holds : Holds c " else if  b" := by
    refine ⟨.elseIf "b", second, ?_⟩
    rintro expression ⟨⟩
    exact truth "b" rfl (by decide) (.bool true) rfl
  have fails : Fails c "if a" :=
    ⟨.ifTrue "a", "a", first, rfl, truth "a" rfl (by decide) (.bool false) rfl⟩
  refine ⟨block, formed, ((selects block formed c).1 2).mpr ?_⟩
  exact ⟨[("if a", 1)], " else if  b", [("else", 2)], rfl, holds,
    List.forall_mem_singleton.mpr fails⟩

end ConditionBlock

end Docscript

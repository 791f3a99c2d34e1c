import Docscript.Proofs.Template.Keys
import Mathlib.Data.List.Forall2
import Mathlib.Data.List.TakeWhile

set_option autoImplicit false

namespace Docscript

namespace Template

/-- A placeholder stands between `before` and `after` in a text. -/
structure Occurs (text before inner after : List Char) : Prop where
  split : text = before ++ (Piece.placeholder inner).source ++ after
  nonempty : inner ≠ []
  unbraced : ∀ c ∈ inner, isBrace c = false

variable {text before inner after : List Char}

theorem source_ne_nil (piece : Piece) : piece.source ≠ [] := by
  cases piece <;> exact List.cons_ne_nil _ _

theorem Occurs.append_left (occurs : Occurs text before inner after) (front : List Char) :
    Occurs (front ++ text) (front ++ before) inner after :=
  ⟨by simp only [occurs.split, List.append_assoc], occurs.nonempty, occurs.unbraced⟩

theorem occurs_append_left_iff {front : List Char} :
    Occurs (front ++ text) (front ++ before) inner after ↔ Occurs text before inner after := by
  refine ⟨fun occurs => ⟨?_, occurs.nonempty, occurs.unbraced⟩, fun occurs =>
    occurs.append_left front⟩
  have split := occurs.split
  rwa [List.append_assoc, List.append_assoc, List.append_cancel_left_eq, ← List.append_assoc]
    at split

/-- From the marks that open a placeholder on, its inner text and what follows are settled. -/
theorem eq_of_source_append {first second afterFirst afterSecond : List Char}
    (here : Occurs text [] first afterFirst) (there : Occurs text [] second afterSecond) :
    first = second ∧ afterFirst = afterSecond := by
  have same := here.split.symm.trans there.split
  simp only [Piece.source, List.nil_append, List.cons_append, List.append_assoc,
    List.cons.injEq, true_and] at same
  have read := inner?_append_brace here.nonempty here.unbraced afterFirst
  rw [same, inner?_append_brace there.nonempty there.unbraced afterSecond, Option.some.injEq,
    Prod.mk.injEq] at read
  exact ⟨read.1.symm, read.2.symm⟩

/-- Within a placeholder no dollar sign has the second mark after it: between the marks there is no
brace, and the last mark is not a dollar sign. -/
theorem exists_of_source_eq {gap tail : List Char} (unbraced : ∀ c ∈ inner, isBrace c = false)
    (later : gap ≠ []) (same : (Piece.placeholder inner).source = gap ++ '$' :: tail) :
    ∃ c others, tail = c :: others ∧ c ≠ '{' := by
  obtain ⟨start, gap, rfl⟩ := List.exists_cons_of_ne_nil later
  simp only [Piece.source, List.cons_append, List.cons.injEq] at same
  cases tail with
  | nil =>
    have last := congrArg List.getLast? same.2
    rw [← List.cons_append, List.getLast?_concat, List.getLast?_concat, Option.some.injEq] at last
    exact absurd last (by decide)
  | cons c others =>
    refine ⟨c, others, rfl, ?_⟩
    rintro rfl
    cases gap with
    | nil => simp at same
    | cons mark gap =>
      rw [List.cons_append, List.cons.injEq] at same
      have inside : '{' ∈ inner ++ ['}'] := by simp [same.2.2]
      rcases List.mem_append.mp inside with within | closing
      · exact absurd (unbraced '{' within) (by decide)
      · simp at closing

/-- No placeholder starts within another one. -/
theorem exists_of_source_append_eq {gap second rest : List Char}
    (unbraced : ∀ c ∈ inner, isBrace c = false) (later : gap ≠ [])
    (same : (Piece.placeholder inner).source ++ after =
      gap ++ ((Piece.placeholder second).source ++ rest)) :
    ∃ between, gap = (Piece.placeholder inner).source ++ between := by
  rcases List.append_eq_append_iff.mp same with ⟨between, whole, -⟩ | ⟨tail, whole, onward⟩
  · exact ⟨between, whole⟩
  · cases tail with
    | nil => exact ⟨[], by rw [whole, List.append_nil, List.append_nil]⟩
    | cons first tail =>
      simp only [Piece.source, List.cons_append, List.cons.injEq] at onward
      obtain ⟨rfl, onward⟩ := onward
      obtain ⟨c, others, rfl, other⟩ := exists_of_source_eq unbraced later whole
      exact absurd (List.cons.inj onward).1.symm other

theorem exists_of_le {before' inner' after' : List Char} (first : Occurs text before inner after)
    (second : Occurs text before' inner' after') (order : before.length ≤ before'.length) :
    (before = before' ∧ inner = inner' ∧ after = after') ∨
      ∃ between, before' = before ++ (Piece.placeholder inner).source ++ between := by
  have same := first.split.symm.trans second.split
  obtain ⟨gap, rfl⟩ : before <+: before' := by
    have front : before <+: text := ⟨_, by rw [first.split, List.append_assoc]⟩
    have other : before' <+: text := ⟨_, by rw [second.split, List.append_assoc]⟩
    exact List.prefix_of_prefix_length_le front other order
  by_cases start : gap = []
  · subst start
    rw [List.append_nil] at second
    have split := first.split
    rw [List.append_assoc] at split
    have here : Occurs ((Piece.placeholder inner).source ++ after) [] inner after :=
      ⟨rfl, first.nonempty, first.unbraced⟩
    have there : Occurs ((Piece.placeholder inner).source ++ after) [] inner' after' := by
      rw [split] at second
      exact occurs_append_left_iff.mp (by rwa [List.append_nil])
    exact .inl ⟨(List.append_nil before).symm, eq_of_source_append here there⟩
  · simp only [List.append_assoc, List.append_cancel_left_eq] at same
    obtain ⟨between, rfl⟩ := exists_of_source_append_eq first.unbraced start same
    exact .inr ⟨between, (List.append_assoc _ _ _).symm⟩

/-- Of two placeholders of a text one ends before the other starts. -/
theorem occurs_apart {before' inner' after' : List Char} (first : Occurs text before inner after)
    (second : Occurs text before' inner' after') :
    (before = before' ∧ inner = inner' ∧ after = after') ∨
      before.length + (Piece.placeholder inner).source.length ≤ before'.length ∨
      before'.length + (Piece.placeholder inner').source.length ≤ before.length := by
  rcases Nat.le_total before.length before'.length with order | order
  · rcases exists_of_le first second order with same | ⟨between, rfl⟩
    · exact .inl same
    · exact .inr (.inl (by simp))
  · rcases exists_of_le second first order with ⟨rfl, rfl, rfl⟩ | ⟨between, rfl⟩
    · exact .inl ⟨rfl, rfl, rfl⟩
    · exact .inr (.inr (by simp))

theorem pieces_of_occurs_start (occurs : Occurs text [] inner after) :
    pieces text = .placeholder inner :: pieces after := by
  rw [occurs.split, List.nil_append, pieces_placeholder_append occurs.nonempty occurs.unbraced]

theorem occurs_of_inner? {rest : List Char} (found : inner? rest = some (inner, after)) :
    Occurs ('$' :: '{' :: rest) [] inner after := by
  have taken : inner = rest.takeWhile (!isBrace ·) ∧ inner ≠ [] := by
    simp only [inner?] at found
    split at found
    · split at found
      · cases found
      · next filled =>
        rw [Option.some.injEq, Prod.mk.injEq] at found
        rw [← found.1]
        exact ⟨rfl, fun empty => filled (List.isEmpty_iff.mpr empty)⟩
    · cases found
  refine ⟨by simp [append_of_inner? found, Piece.source], taken.2, fun c member => ?_⟩
  rw [taken.1] at member
  simpa using List.mem_takeWhile_imp member

theorem pieces_of_not_occurs_start {c : Char} {rest : List Char}
    (none : ∀ inner after, ¬ Occurs (c :: rest) [] inner after) :
    pieces (c :: rest) = .literal c :: pieces rest := by
  by_cases marks : ∃ others, c = '$' ∧ rest = '{' :: others
  · obtain ⟨others, rfl, rfl⟩ := marks
    rw [pieces]
    split
    · next inner after found => exact absurd (occurs_of_inner? found) (none inner after)
    · rfl
  · rw [pieces]
    exact fun others first same => marks ⟨others, first, same⟩

/-- Texts are built up from their end, by characters that start no placeholder and by
placeholders. -/
@[elab_as_elim] theorem occurrence_induction {motive : List Char → Prop} (nil : motive [])
    (letter : ∀ c rest, (∀ inner after, ¬ Occurs (c :: rest) [] inner after) → motive rest →
      motive (c :: rest))
    (placeholder : ∀ inner after, inner ≠ [] → (∀ c ∈ inner, isBrace c = false) → motive after →
      motive ((Piece.placeholder inner).source ++ after))
    (text : List Char) : motive text := by
  induction shorter : text.length using Nat.strongRecOn generalizing text with
  | ind size ih =>
    by_cases start : ∃ inner after, Occurs text [] inner after
    · obtain ⟨inner, after, occurs⟩ := start
      rw [occurs.split]
      refine placeholder inner after occurs.nonempty occurs.unbraced (ih after.length ?_ after rfl)
      rw [← shorter, occurs.split]
      simp [Piece.source]
      omega
    · cases text with
      | nil => exact nil
      | cons c rest =>
        simp only [not_exists] at start
        exact letter c rest start (ih rest.length (by simp [← shorter]) rest rfl)

/-- Two texts are put together part by part if no placeholder lies across their joint. -/
theorem pieces_append {s t : List Char}
    (separate : ∀ before inner after, Occurs (s ++ t) before inner after →
      before.length + (Piece.placeholder inner).source.length ≤ s.length ∨
        s.length ≤ before.length) :
    pieces (s ++ t) = pieces s ++ pieces t := by
  induction s using occurrence_induction with
  | nil => rw [List.nil_append, pieces, List.nil_append]
  | letter c rest none ih =>
    have noneJoined : ∀ inner after, ¬ Occurs (c :: (rest ++ t)) [] inner after := by
      intro inner after occurs
      rcases separate [] inner after occurs with within | later
      · obtain ⟨others, whole⟩ : (Piece.placeholder inner).source <+: c :: rest := by
          have front : (Piece.placeholder inner).source <+: c :: (rest ++ t) :=
            ⟨after, occurs.split.symm⟩
          have other : c :: rest <+: c :: (rest ++ t) := ⟨t, rfl⟩
          exact List.prefix_of_prefix_length_le front other (by simpa using within)
        exact none inner others ⟨whole.symm, occurs.nonempty, occurs.unbraced⟩
      · simp at later
    rw [List.cons_append, pieces_of_not_occurs_start none, pieces_of_not_occurs_start noneJoined,
      ih, List.cons_append]
    intro before inner after occurs
    have shifted := separate (c :: before) inner after (occurs.append_left [c])
    simp only [List.length_cons] at shifted
    omega
  | placeholder first rest nonempty unbraced ih =>
    rw [List.append_assoc, pieces_placeholder_append nonempty unbraced,
      pieces_placeholder_append nonempty unbraced, ih, List.cons_append]
    intro before inner after occurs
    have shifted := separate ((Piece.placeholder first).source ++ before) inner after
      (by rw [List.append_assoc]; exact occurs.append_left _)
    simp only [List.length_append] at shifted
    omega

theorem separate_of_occurs (occurs : Occurs text before inner after)
    {before' inner' after' : List Char} (other : Occurs text before' inner' after') :
    before'.length + (Piece.placeholder inner').source.length ≤ before.length ∨
      before.length ≤ before'.length := by
  rcases occurs_apart occurs other with ⟨rfl, -, -⟩ | later | earlier
  · exact .inr (Nat.le_refl _)
  · exact .inr (by omega)
  · exact .inl earlier

theorem pieces_of_occurs (occurs : Occurs text before inner after) :
    pieces text = pieces before ++ .placeholder inner :: pieces after := by
  have split := occurs.split
  rw [List.append_assoc] at split
  rw [split, pieces_append, pieces_placeholder_append occurs.nonempty occurs.unbraced]
  intro before' inner' after' other
  exact separate_of_occurs occurs (split ▸ other)

theorem plain_of_mem_pieces (member : .placeholder inner ∈ pieces text) :
    inner ≠ [] ∧ ∀ c ∈ inner, isBrace c = false := by
  induction text using occurrence_induction with
  | nil =>
    rw [pieces] at member
    cases member
  | letter c rest none ih =>
    rw [pieces_of_not_occurs_start none, List.mem_cons] at member
    exact member.elim (fun same => by cases same) ih
  | placeholder first rest nonempty unbraced ih =>
    rw [pieces_placeholder_append nonempty unbraced, List.mem_cons] at member
    rcases member with same | later
    · cases same
      exact ⟨nonempty, unbraced⟩
    · exact ih later

/-- A row of parts of a text. Put together they are the text again, and the placeholders among them
are the placeholders of the text, each in its place. -/
structure Parted (text : List Char) (parts : List Piece) : Prop where
  whole : parts.flatMap Piece.source = text
  placed : ∀ before inner after, Occurs text before inner after ↔
    ∃ front rest, parts = front ++ .placeholder inner :: rest ∧
      front.flatMap Piece.source = before ∧ rest.flatMap Piece.source = after

theorem parted_pieces (text : List Char) : Parted text (pieces text) := by
  refine ⟨flatMap_source_pieces text, fun before inner after => ⟨fun occurs => ?_, ?_⟩⟩
  · exact ⟨pieces before, pieces after, pieces_of_occurs occurs, flatMap_source_pieces before,
      flatMap_source_pieces after⟩
  · rintro ⟨front, rest, parts, rfl, rfl⟩
    have member : .placeholder inner ∈ pieces text := by simp [parts]
    obtain ⟨nonempty, unbraced⟩ := plain_of_mem_pieces member
    refine ⟨?_, nonempty, unbraced⟩
    rw [← flatMap_source_pieces text, parts, List.flatMap_append, List.flatMap_cons,
      List.append_assoc]

theorem flatMap_source_eq_nil_iff {parts : List Piece} :
    parts.flatMap Piece.source = [] ↔ parts = [] := by
  cases parts with
  | nil => simp
  | cons piece rest => simp [source_ne_nil piece]

theorem Parted.tail {piece : Piece} {parts : List Piece} (parted : Parted text (piece :: parts)) :
    Parted (parts.flatMap Piece.source) parts := by
  have whole := parted.whole
  rw [List.flatMap_cons] at whole
  refine ⟨rfl, fun before inner after => ?_⟩
  have shifted : Occurs (piece.source ++ parts.flatMap Piece.source) (piece.source ++ before)
      inner after ↔ Occurs (parts.flatMap Piece.source) before inner after :=
    occurs_append_left_iff
  rw [← shifted, whole, parted.placed]
  constructor
  · rintro ⟨front, rest, same, atFront, atRest⟩
    cases front with
    | nil =>
      have nothing := List.append_eq_nil_iff.mp atFront.symm
      exact absurd nothing.1 (source_ne_nil piece)
    | cons first front =>
      rw [List.cons_append, List.cons.injEq] at same
      rw [← same.1, List.flatMap_cons, List.append_cancel_left_eq] at atFront
      exact ⟨front, rest, same.2, atFront, atRest⟩
  · rintro ⟨front, rest, rfl, rfl, rfl⟩
    exact ⟨piece :: front, rest, rfl, List.flatMap_cons, rfl⟩

theorem parted_iff {parts : List Piece} : Parted text parts ↔ pieces text = parts := by
  refine ⟨fun parted => ?_, fun same => same ▸ parted_pieces text⟩
  induction parts generalizing text with
  | nil => rw [← parted.whole, List.flatMap_nil, pieces]
  | cons piece rest ih =>
    have onward := ih parted.tail
    have whole := parted.whole
    cases piece with
    | placeholder inner =>
      have first := (parted.placed [] inner (rest.flatMap Piece.source)).mpr
        ⟨[], rest, rfl, rfl, rfl⟩
      rw [pieces_of_occurs_start first, onward]
    | literal c =>
      rw [List.flatMap_cons, Piece.source, List.singleton_append] at whole
      rw [← whole, pieces_of_not_occurs_start, onward]
      intro inner after occurs
      obtain ⟨front, others, same, atFront, -⟩ := (parted.placed [] inner after).mp (whole ▸ occurs)
      rw [flatMap_source_eq_nil_iff.mp atFront] at same
      cases same

variable {options : CompileOptions} {scope c : Context}

/-- What a part of a text gives way to: a placeholder to the text of the value of its path, and if
there is none to itself or to nothing. All else is kept. -/
inductive Becomes (options : CompileOptions) (scope : Context) : Piece → List Char → Prop where
  | literal (c : Char) : Becomes options scope (.literal c) [c]
  | shown {inner : List Char} {value : Value}
      (found : scope.find? (Text.trim inner) = some value) :
      Becomes options scope (.placeholder inner) value.display.toList
  | kept {inner : List Char} (absent : scope.find? (Text.trim inner) = none)
      (keep : options.keepPlaceholders = true) :
      Becomes options scope (.placeholder inner) (Piece.placeholder inner).source
  | dropped {inner : List Char} (absent : scope.find? (Text.trim inner) = none)
      (drop : options.keepPlaceholders = false) :
      Becomes options scope (.placeholder inner) []

theorem becomes_iff {piece : Piece} {out : List Char} :
    Becomes options scope piece out ↔ piece.fill options scope = out := by
  constructor
  · rintro (_ | found | ⟨absent, keep⟩ | ⟨absent, drop⟩)
    · rfl
    · rw [Piece.fill, found]
    · rw [Piece.fill, absent]
      exact if_pos keep
    · rw [Piece.fill, absent]
      exact if_neg (by simp [drop])
  · rintro rfl
    cases piece with
    | literal c => exact .literal c
    | placeholder inner =>
      rw [Piece.fill]
      cases found : scope.find? (Text.trim inner) with
      | some value => exact .shown found
      | none =>
        cases keep : options.keepPlaceholders with
        | true => exact .kept found keep
        | false => exact .dropped found keep

/-- A text is composed by putting in the place of each of its parts what that part becomes. -/
def Composes (options : CompileOptions) (scope : Context) (text out : List Char) : Prop :=
  ∃ parts outs, Parted text parts ∧ List.Forall₂ (Becomes options scope) parts outs ∧
    outs.flatten = out

theorem composes_iff {out : List Char} :
    Composes options scope text out ↔ fill options scope text = out := by
  have filled (parts : List Piece) (outs : List (List Char)) :
      List.Forall₂ (Becomes options scope) parts outs ↔
        parts.map (Piece.fill options scope) = outs := by
    have fills : Becomes options scope = fun piece => Eq (piece.fill options scope) := by
      funext piece out
      exact propext becomes_iff
    rw [fills, ← List.forall₂_map_left_iff, List.forall₂_eq_eq_eq]
  simp only [Composes, parted_iff, filled, exists_and_left, exists_eq_left', fill,
    List.flatMap_def]

theorem Composes.append {s t outS outT : List Char}
    (separate : ∀ before inner after, Occurs (s ++ t) before inner after →
      before.length + (Piece.placeholder inner).source.length ≤ s.length ∨
        s.length ≤ before.length)
    (first : Composes options scope s outS) (second : Composes options scope t outT) :
    Composes options scope (s ++ t) (outS ++ outT) := by
  rw [composes_iff] at *
  rw [← first, ← second, fill, pieces_append separate, List.flatMap_append]
  rfl

/-- A text with a placeholder and more than it is read as a scalar once it is composed. -/
theorem compileText_of_composes {text : String} {out : List Char}
    (placed : ∃ before inner after, Occurs text.toList before inner after)
    (more : ¬ ∃ inner, Occurs text.toList [] inner [])
    (composes : Composes options c.expanded text.toList out) :
    compileText options c text = .ofText out := by
  obtain ⟨before, inner, after, occurs⟩ := placed
  have filled : textHasPlaceholder text.toList = true := by
    rw [textHasPlaceholder, pieces_of_occurs occurs]
    simp [Piece.isPlaceholder]
  have composite : ¬ ∃ inner, pieces text.toList = [.placeholder inner] := by
    rintro ⟨inner, single⟩
    exact more ⟨inner, ((parted_pieces text.toList).placed [] inner []).mpr
      ⟨[], [], single, rfl, rfl⟩⟩
  rw [compileText, if_pos filled, interpolate_of_not_single composite, composes_iff.mp composes]

/-- The placeholders of a text are filled in one pass. No two of them overlap. Each text is composed
in exactly one way, by putting the text of its value, or what the options say if there is none, in
the place of each of its placeholders and by keeping everything else; what is put in is not looked
at again. A text that has a placeholder and more than it is compiled to the scalar that the composed
text reads as. A text that is cut where no placeholder lies across is composed part by part. -/
theorem fills_in_one_pass (options : CompileOptions) (c : Context) :
    (∀ text before inner after before' inner' after' : List Char,
      Occurs text before inner after → Occurs text before' inner' after' →
        (before = before' ∧ inner = inner' ∧ after = after') ∨
          before.length + (Piece.placeholder inner).source.length ≤ before'.length ∨
          before'.length + (Piece.placeholder inner').source.length ≤ before.length) ∧
    (∀ text, ∃! out, Composes options c.expanded text out) ∧
    (∀ (text : String) (out : List Char),
      (∃ before inner after, Occurs text.toList before inner after) →
        (¬ ∃ inner, Occurs text.toList [] inner []) →
          Composes options c.expanded text.toList out →
            compileText options c text = .ofText out) ∧
    ∀ s t outS outT : List Char,
      (∀ before inner after, Occurs (s ++ t) before inner after →
        before.length + (Piece.placeholder inner).source.length ≤ s.length ∨
          s.length ≤ before.length) →
        Composes options c.expanded s outS → Composes options c.expanded t outT →
          Composes options c.expanded (s ++ t) (outS ++ outT) := by
  refine ⟨fun _ _ _ _ _ _ _ first second => occurs_apart first second, fun text => ?_,
    fun _ _ placed more composes => compileText_of_composes placed more composes,
    fun _ _ _ _ separate first second => first.append separate second⟩
  exact ⟨fill options c.expanded text, composes_iff.mpr rfl,
    fun other composes => (composes_iff.mp composes).symm⟩

/-- A value that completes a placeholder together with the character in front of it: the placeholder
that comes about is not filled, though its path is known. -/
theorem fills_in_one_pass_beside_completed :
    let c : Context := ⟨[("a", .string "{b}"), ("b", .int 1)]⟩
    let s := "$${a}".toList
    let t := "${b}".toList
    Occurs (s ++ t) ['$'] ['a'] t ∧ Occurs (s ++ t) s ['b'] [] ∧
      ['$'].length + (Piece.placeholder ['a']).source.length ≤ s.length ∧
      Composes {} c.expanded s "${b}".toList ∧ Composes {} c.expanded t ['1'] ∧
      Composes {} c.expanded (s ++ t) "${b}1".toList ∧
      compileText {} c "$${a}${b}" = .string "${b}1" := by
  intro c s t
  obtain ⟨apart, -, compiled, joined⟩ := fills_in_one_pass {} c
  have first : Occurs (s ++ t) ['$'] ['a'] t := ⟨by decide, by decide, by simp [isBrace]⟩
  have second : Occurs (s ++ t) s ['b'] [] := ⟨by decide, by decide, by simp [isBrace]⟩
  have ends : ['$'].length + (Piece.placeholder ['a']).source.length ≤ s.length := by
    rcases apart _ _ _ _ _ _ _ first second with ⟨same, -⟩ | before | after
    · exact absurd same (by decide)
    · exact before
    · exact absurd after (by decide)
  have foundA : c.expanded.find? (Text.trim ['a']) = some (.string "{b}") :=
    Context.find?_of_name (by decide) rfl
  have foundB : c.expanded.find? (Text.trim ['b']) = some (.int 1) :=
    Context.find?_of_name (by decide) rfl
  have partsS : pieces s = [.literal '$', .placeholder ['a']] := by
    have occurs : Occurs s ['$'] ['a'] [] := ⟨by decide, by decide, by simp [isBrace]⟩
    rw [pieces_of_occurs occurs]
    simp [pieces]
  have partsT : pieces t = [.placeholder ['b']] := by
    have occurs : Occurs t [] ['b'] [] := ⟨by decide, by decide, by simp [isBrace]⟩
    rw [pieces_of_occurs occurs]
    simp [pieces]
  have composesS : Composes {} c.expanded s "${b}".toList := by
    rw [composes_iff, fill, partsS]
    simp only [List.flatMap_cons, List.flatMap_nil, Piece.fill, foundA]
    rfl
  have composesT : Composes {} c.expanded t ['1'] := by
    rw [composes_iff, fill, partsT]
    simp only [List.flatMap_cons, List.flatMap_nil, Piece.fill, foundB]
    rfl
  have composes := joined s t _ _ (fun _ _ _ => separate_of_occurs second) composesS composesT
  have whole : ¬ ∃ inner, Occurs (s ++ t) [] inner [] := by
    rintro ⟨inner, occurs⟩
    rcases apart _ _ _ _ _ _ _ occurs first with ⟨same, -⟩ | before | after
    · cases same
    · simp [Piece.source] at before
    · simp [Piece.source] at after
  have value := compiled "$${a}${b}" _ ⟨_, _, _, first⟩ whole composes
  exact ⟨first, second, ends, composesS, composesT, composes, value.trans (by rfl)⟩

end Template

end Docscript

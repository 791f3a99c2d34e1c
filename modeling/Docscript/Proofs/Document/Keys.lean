import Docscript.Document
import Docscript.Proofs.Steps
import Docscript.Proofs.Template.Keys

set_option autoImplicit false

namespace Docscript

namespace Document

open Entries (Gathers)
open Steps (of_bind_eq_ok)
open Template (KeepsText compile compileKey keyText)

variable {options : CompileOptions} {c : Context}

/-- What a run of condition keys adds: the entries of the branch that it selects. -/
def runAdditions (c : Context) (run : List (String × Meaning)) : Except Error (Entries Value) :=
  if run.isEmpty then .ok []
  else
    match ConditionBlock.ofEntries run with
    | .error error => .error error
    | .ok block =>
      match choose block c with
      | .error error => .error error
      | .ok (.value (.object entries)) => .ok entries
      | .ok .nothing => .ok []
      | .ok _ => .error .branchPlacement

/-- What the entries of an object with plain keys add, with a given text for each plain key. -/
def additions (text : String → String) (c : Context) (run : List (String × Meaning)) :
    List (String × Meaning) → Except Error (Entries Value)
  | [] => runAdditions c run
  | (key, body) :: rest =>
    match KeyClass.classify key with
    | .condition _ => additions text c (run ++ [(key, body)]) rest
    | .loop _ => .error (.loopPlacement key)
    | .plain => do
      let branch ← runAdditions c run
      let rendered ← body c
      let later ← additions text c [] rest
      return branch ++ (rendered.toValue?.map (text key, ·)).toList ++ later

theorem mergeRun_eq (done : Entries Value) (run : List (String × Meaning)) :
    mergeRun c done run = (runAdditions c run).map done.insertAll := by
  rw [mergeRun, runAdditions]
  by_cases empty : run.isEmpty = true
  · simp [empty, Except.map, Entries.insertAll]
  · rw [if_neg empty, if_neg empty]
    cases ConditionBlock.ofEntries run with
    | error error => rfl
    | ok block =>
      simp only []
      cases choose block c with
      | error error => rfl
      | ok rendered =>
        cases rendered with
        | value value => cases value <;> rfl
        | spread items => rfl
        | nothing => rfl

/-- The entries of an object are put one after the other, plain keys as they are compiled. -/
theorem mixed_eq (done : Entries Value) (run entries : List (String × Meaning)) :
    mixed options c done run entries =
      (additions (compileKey options c) c run entries).map done.insertAll := by
  induction entries generalizing done run with
  | nil => exact mergeRun_eq done run
  | cons entry rest ih =>
    obtain ⟨key, body⟩ := entry
    rw [mixed, additions]
    cases KeyClass.classify key with
    | condition role => exact ih done (run ++ [(key, body)])
    | loop declared => rfl
    | plain =>
      simp only [mergeRun_eq]
      cases runAdditions c run with
      | error error => rfl
      | ok branch =>
        cases body c with
        | error error => rfl
        | ok rendered =>
          have onward : ∀ own : Entries Value,
              (additions (compileKey options c) c [] rest).map
                  ((done.insertAll branch).insertAll own).insertAll =
                ((additions (compileKey options c) c [] rest).map (branch ++ own ++ ·)).map
                  done.insertAll := by
            intro own
            cases additions (compileKey options c) c [] rest with
            | error error => rfl
            | ok later => simp only [Except.map, Entries.insertAll_append]
          cases shown : rendered.toValue? with
          | none =>
            simp only [Except.map, Bind.bind, Except.bind, shown, ih]
            exact onward []
          | some value =>
            simp only [Except.map, Bind.bind, Except.bind, shown, ih]
            exact onward [(compileKey options c key, value)]

/-- What is added depends on the texts of the plain keys alone. -/
theorem additions_congr {first second : String → String} {entries : List (String × Meaning)}
    (same : ∀ entry ∈ entries, KeyClass.classify entry.1 = .plain →
      first entry.1 = second entry.1) (run : List (String × Meaning)) :
    additions first c run entries = additions second c run entries := by
  induction entries generalizing run with
  | nil => rfl
  | cons entry rest ih =>
    obtain ⟨key, body⟩ := entry
    rw [List.forall_mem_cons] at same
    rw [additions, additions]
    cases kind : KeyClass.classify key with
    | condition role => exact ih same.2 _
    | loop declared => rfl
    | plain => simp only [same.1 kind, ih same.2]

theorem of_additions_plain {text : String → String} {key : String} {body : Meaning}
    {run rest : List (String × Meaning)} {added : Entries Value}
    (plain : KeyClass.classify key = .plain)
    (resolved : additions text c run ((key, body) :: rest) = .ok added) :
    ∃ branch rendered later, runAdditions c run = .ok branch ∧ body c = .ok rendered ∧
      additions text c [] rest = .ok later ∧
      added = branch ++ (rendered.toValue?.map (text key, ·)).toList ++ later := by
  rw [additions, plain] at resolved
  obtain ⟨branch, selected, afterBranch⟩ := of_bind_eq_ok resolved
  obtain ⟨rendered, rendering, afterBody⟩ := of_bind_eq_ok afterBranch
  obtain ⟨later, onward, same⟩ := of_bind_eq_ok afterBody
  cases same
  exact ⟨branch, rendered, later, selected, rendering, onward, rfl⟩

/-- The value of a plain key is added under its text. -/
theorem mem_additions {text : String → String} {entries run : List (String × Meaning)}
    {added : Entries Value} {key : String} {body : Meaning} {rendered : Rendered} {value : Value}
    (resolved : additions text c run entries = .ok added) (member : (key, body) ∈ entries)
    (plain : KeyClass.classify key = .plain) (rendering : body c = .ok rendered)
    (shown : rendered.toValue? = some value) : (text key, value) ∈ added := by
  induction entries generalizing run added with
  | nil => cases member
  | cons entry rest ih =>
    obtain ⟨name, other⟩ := entry
    cases kind : KeyClass.classify name with
    | condition role =>
      rw [additions, kind] at resolved
      rcases List.mem_cons.mp member with own | later
      · cases own
        rw [kind] at plain
        cases plain
      · exact ih resolved later
    | loop declared =>
      rw [additions, kind] at resolved
      cases resolved
    | plain =>
      obtain ⟨branch, own, later, -, ownRendering, onward, rfl⟩ := of_additions_plain kind resolved
      rcases List.mem_cons.mp member with here | there
      · cases here
        rw [rendering, Except.ok.injEq] at ownRendering
        simp [← ownRendering, shown]
      · exact List.mem_append_right _ (ih onward there)

theorem entryMeanings_eq (options : CompileOptions) (entries : List (String × Value)) :
    entryMeanings options entries =
      entries.map fun entry => (entry.1, meaning options entry.2) := by
  induction entries with
  | nil => rfl
  | cons entry rest ih => rw [entryMeanings, ih, List.map_cons]

theorem entryMeanings_append (options : CompileOptions) (run rest : List (String × Value)) :
    entryMeanings options (run ++ rest) =
      entryMeanings options run ++ entryMeanings options rest := by
  rw [entryMeanings_eq, entryMeanings_eq, entryMeanings_eq, List.map_append]

theorem meaning_object_eq (entries : List (String × Value))
    (noLoop : soleLoop? (entryMeanings options entries) = none)
    (noBlock : isBlock (entryMeanings options entries) = false) :
    meaning options (.object entries) c =
      (additions (compileKey options c) c [] (entryMeanings options entries)).map fun added =>
        .value (.object (Entries.insertAll [] added)) := by
  rw [meaning, objectMeaning, noLoop, noBlock, mixed_eq]
  cases additions (compileKey options c) c [] (entryMeanings options entries) <;> rfl

/-- The keys of a compiled or rendered object. A key is put as the text that its placeholders make
of it exactly if it keeps its text. Where the keys of an object do, there is one entry for each of
their texts, with the last value put there, and no entry is lost among different texts. -/
theorem keys_keep_text (options : CompileOptions) (c : Context) (entries : List (String × Value)) :
    (∀ key, compileKey options c key = keyText options c key ↔ KeepsText options c key) ∧
    ((∀ entry ∈ entries, KeepsText options c entry.1) →
      ∃ out : Entries Value, compile options c (.object entries) = .object out ∧
        out.Gathers (entries.map fun entry =>
          (keyText options c entry.1, compile options c entry.2))) ∧
    ((∀ entry ∈ entries, KeyClass.classify entry.1 = .plain → KeepsText options c entry.1) →
      soleLoop? (entryMeanings options entries) = none →
      isBlock (entryMeanings options entries) = false →
      (∀ added,
        additions (keyText options c) c [] (entryMeanings options entries) = .ok added →
          (∀ entry ∈ entries, KeyClass.classify entry.1 = .plain → ∀ rendered value,
            meaning options entry.2 c = .ok rendered → rendered.toValue? = some value →
              (keyText options c entry.1, value) ∈ added) ∧
          ∃ out : Entries Value, meaning options (.object entries) c = .ok (.value (.object out)) ∧
            out.Gathers added) ∧
      ∀ error,
        additions (keyText options c) c [] (entryMeanings options entries) = .error error →
          meaning options (.object entries) c = .error error) := by
  refine ⟨Template.compileKey_eq_keyText_iff options c, ?_, ?_⟩
  · intro kept
    have same : (entries.map fun entry =>
          (compileKey options c entry.1, compile options c entry.2)) =
        entries.map fun entry => (keyText options c entry.1, compile options c entry.2) := by
      apply List.map_congr_left
      intro entry member
      rw [(Template.compileKey_eq_keyText_iff options c entry.1).mpr (kept entry member)]
    have whole : compile options c (.object entries) = _ := Template.compile_object_eq entries
    rw [same] at whole
    exact ⟨_, whole, Entries.gathers_insertAll _⟩
  · intro kept noLoop noBlock
    have same : additions (compileKey options c) c [] (entryMeanings options entries) =
        additions (keyText options c) c [] (entryMeanings options entries) := by
      apply additions_congr
      rw [entryMeanings_eq, List.forall_mem_map]
      intro entry member plain
      exact (Template.compileKey_eq_keyText_iff options c entry.1).mpr (kept entry member plain)
    have whole := meaning_object_eq (c := c) entries noLoop noBlock
    rw [same] at whole
    constructor
    · intro added resolved
      rw [resolved] at whole
      refine ⟨?_, _, whole, Entries.gathers_insertAll added⟩
      intro entry member plain rendered value rendering shown
      apply mem_additions resolved _ plain rendering shown
      rw [entryMeanings_eq]
      exact List.mem_map_of_mem member
    · intro error failed
      rw [whole, failed]
      rfl

/-- Two keys with one variable, whose texts differ. -/
theorem keys_keep_text_beside_number :
    let c : Context := ⟨[("a", .int 7)]⟩
    let entries : List (String × Value) := [("x${a}", .int 1), ("${a}", .int 2)]
    (∀ entry ∈ entries, KeepsText {} c entry.1) ∧
      compile {} c (.object entries) = .object [("x7", .int 1), ("7", .int 2)] := by
  intro c entries
  have unbraced : ∀ ch ∈ "a".toList, Template.isBrace ch = false := by simp [Template.isBrace]
  have found : c.expanded.find? (Text.trim "a".toList) = some (.int 7) :=
    Context.find?_of_name (by decide) rfl
  have number : Template.fill {} c.expanded "${a}".toList = ['7'] :=
    Template.fill_placeholder (by decide) unbraced {} found
  have word : Template.fill {} c.expanded "x${a}".toList = ['x', '7'] := by
    have front := Template.fill_cons (c := 'x') (by decide) {} c.expanded "${a}".toList
    rwa [number] at front
  have single : Template.pieces "${a}".toList = [.placeholder "a".toList] :=
    Template.pieces_placeholder (by decide) unbraced
  have kept : ∀ entry ∈ entries, KeepsText {} c entry.1 := by
    rw [List.forall_mem_cons, List.forall_mem_singleton]
    exact ⟨Template.keepsText_of_unread word (by decide) (by decide) (by decide),
      .inr (.inl ⟨_, single⟩)⟩
  obtain ⟨-, template, -⟩ := keys_keep_text {} c entries
  obtain ⟨out, compiled, gathers⟩ := template kept
  have texts : (entries.map fun entry => (keyText {} c entry.1, compile {} c entry.2)) =
      [("x7", .int 1), ("7", .int 2)] := by
    simp only [entries, List.map_cons, List.map_nil, keyText, word, number]
    rfl
  rw [texts] at gathers
  exact ⟨kept, by rw [compiled, gathers.whole (by decide)]⟩

/-- The texts of two keys of one object that read as the same number share an entry. -/
theorem not_forall_keys_keep_text :
    ¬ ∀ (options : CompileOptions) (c : Context) (entries : List (String × Value)),
      ∃ out : Entries Value, compile options c (.object entries) = .object out ∧
        out.Gathers (entries.map fun entry =>
          (keyText options c entry.1, compile options c entry.2)) := by
  intro always
  let c : Context := ⟨[("a", .int 7)]⟩
  have unbraced : ∀ ch ∈ "a".toList, Template.isBrace ch = false := by simp [Template.isBrace]
  have found : c.expanded.find? (Text.trim "a".toList) = some (.int 7) :=
    Context.find?_of_name (by decide) rfl
  have number : Template.fill {} c.expanded "${a}".toList = ['7'] :=
    Template.fill_placeholder (by decide) unbraced {} found
  have zero : Template.fill {} c.expanded "0${a}".toList = ['0', '7'] := by
    have front := Template.fill_cons (c := '0') (by decide) {} c.expanded "${a}".toList
    rwa [number] at front
  have single : Template.pieces "${a}".toList = [.placeholder "a".toList] :=
    Template.pieces_placeholder (by decide) unbraced
  have double : Template.pieces "0${a}".toList = [.literal '0', .placeholder "a".toList] := by
    have front := Template.pieces_cons (c := '0') (by decide) "${a}".toList
    rwa [single] at front
  have putNumber : compileKey {} c "${a}" = "7" := by
    rw [(Template.compileKey_eq_keyText_iff {} c _).mpr (.inr (.inl ⟨_, single⟩)), keyText, number]
  have putZero : compileKey {} c "0${a}" = "7" := by
    have composite : ¬ ∃ inner, Template.pieces "0${a}".toList = [.placeholder inner] := by
      rw [double]
      simp
    rw [compileKey, Template.textHasPlaceholder, double,
      Template.interpolate_of_not_single composite, zero]
    decide
  obtain ⟨out, compiled, gathers⟩ :=
    always {} c [("0${a}", .int 1), ("${a}", .int 2)]
  rw [Template.compile_object_eq, Value.object.injEq] at compiled
  simp only [List.map_cons, List.map_nil, putNumber, putZero] at compiled
  simp only [List.map_cons, List.map_nil, keyText, number, zero] at gathers
  have whole := gathers.whole (by decide)
  rw [← compiled] at whole
  simp [Entries.insertAll, Entries.insert] at whole

end Document

end Docscript

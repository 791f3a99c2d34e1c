import Docscript.Proofs.Entries
import Docscript.Proofs.Template.Placeholder

set_option autoImplicit false

namespace Docscript

namespace Template

theorem append_of_inner? {text inner rest : List Char}
    (found : inner? text = some (inner, rest)) : text = inner ++ '}' :: rest := by
  have whole := List.takeWhile_append_dropWhile (p := (!isBrace ·)) (l := text)
  simp only [inner?] at found
  split at found
  · next tail after =>
    split at found
    · cases found
    · rw [Option.some.injEq, Prod.mk.injEq] at found
      rw [after, found.1, found.2] at whole
      exact whole.symm
  · cases found

theorem pieces_cons {c : Char} (plain : c ≠ '$') (rest : List Char) :
    pieces (c :: rest) = .literal c :: pieces rest := by
  rw [pieces]
  exact fun _ same _ => plain same

theorem pieces_append_of_plain {text : List Char} (plain : ∀ c ∈ text, c ≠ '$')
    (rest : List Char) : pieces (text ++ rest) = text.map .literal ++ pieces rest := by
  induction text with
  | nil => rfl
  | cons c others ih =>
    rw [List.forall_mem_cons] at plain
    rw [List.cons_append, pieces_cons plain.1, ih plain.2, List.map_cons, List.cons_append]

theorem textHasPlaceholder_of_plain {text : List Char} (plain : '$' ∉ text) :
    textHasPlaceholder text = false := by
  have whole := pieces_append_of_plain (fun c member same => plain (same ▸ member)) []
  rw [List.append_nil, pieces, List.append_nil] at whole
  simp [textHasPlaceholder, whole, Piece.isPlaceholder]

theorem compileText_of_get? {c : Context} {text : String} {value : Value}
    (unplaced : textHasPlaceholder text.toList = false)
    (blankless : text.toList.any Text.isBlank = false) (found : c.get? text = some value)
    (options : CompileOptions) : compileText options c text = value := by
  simp only [compileText, unplaced, blankless, Bool.false_eq_true, if_false, found,
    Option.getD_some]

theorem compileKey_of_plain {key : String} (plain : '$' ∉ key.toList) (options : CompileOptions)
    (c : Context) : compileKey options c key = key := by
  rw [compileKey, textHasPlaceholder_of_plain plain]
  rfl

theorem flatMap_source_pieces (text : List Char) : (pieces text).flatMap Piece.source = text := by
  fun_induction pieces text with
  | case1 => rfl
  | case2 rest inner after found ih =>
    rw [List.flatMap_cons, ih, append_of_inner? found, Piece.source]
    simp
  | case3 rest found ih => rw [List.flatMap_cons, ih]; rfl
  | case4 c rest other ih => rw [List.flatMap_cons, ih]; rfl

theorem fill_of_no_placeholder {text : List Char} (plain : textHasPlaceholder text = false)
    (options : CompileOptions) (scope : Context) : fill options scope text = text := by
  have literal : ∀ piece ∈ pieces text, piece.fill options scope = piece.source := by
    intro piece member
    cases piece with
    | literal c => rfl
    | placeholder inner =>
      have none := List.any_eq_false.mp plain _ member
      simp [Piece.isPlaceholder] at none
  rw [fill, List.flatMap_def, List.map_congr_left literal, ← List.flatMap_def]
  exact flatMap_source_pieces text

theorem fill_cons {c : Char} (plain : c ≠ '$') (options : CompileOptions) (scope : Context)
    (rest : List Char) : fill options scope (c :: rest) = c :: fill options scope rest := by
  rw [fill, pieces_cons plain]
  rfl

theorem fill_placeholder {inner : List Char} (nonempty : inner ≠ [])
    (unbraced : ∀ ch ∈ inner, isBrace ch = false) (options : CompileOptions) {scope : Context}
    {value : Value} (found : scope.find? (Text.trim inner) = some value) :
    fill options scope (Piece.placeholder inner).source = value.display.toList := by
  rw [fill, pieces_placeholder nonempty unbraced, List.flatMap_singleton, Piece.fill, found]

/-- A key with each placeholder replaced by the text of its value. -/
def keyText (options : CompileOptions) (c : Context) (key : String) : String :=
  String.ofList (fill options c.expanded key.toList)

/-- Whether a key is put as its text: it has no placeholder, it is one placeholder, or its text is
shown as it was once it is read as a scalar. -/
def KeepsText (options : CompileOptions) (c : Context) (key : String) : Prop :=
  textHasPlaceholder key.toList = false ∨
    (∃ inner, pieces key.toList = [.placeholder inner]) ∨
      (Value.ofText (fill options c.expanded key.toList)).display = keyText options c key

variable {options : CompileOptions} {c : Context}

theorem keepsText_of_unread {key : String} {text : List Char}
    (filled : fill options c.expanded key.toList = text)
    (notTrue : String.ofList (Text.trim text) ≠ "true")
    (notFalse : String.ofList (Text.trim text) ≠ "false") (unread : Number.read? text = none) :
    KeepsText options c key := by
  have shown : (Value.ofText text).display = String.ofList text := by
    rw [Value.ofText]
    split
    · next same => exact absurd same notTrue
    · next same => exact absurd same notFalse
    · rw [unread]
      rfl
  exact .inr (.inr (by rw [keyText, filled, shown]))

/-- A text that is one placeholder has the value of its path, and is shown as that value is. -/
theorem display_interpolate_placeholder {text inner : List Char}
    (single : pieces text = [.placeholder inner]) :
    (interpolate options c text).display = String.ofList (fill options c.expanded text) := by
  have source := flatMap_source_pieces text
  rw [single, List.flatMap_singleton] at source
  rw [interpolate, fill, single, List.flatMap_singleton]
  simp only [Piece.fill]
  cases c.expanded.find? (Text.trim inner) with
  | none => cases options.keepPlaceholders <;> simp [source, Value.display]
  | some value => cases value <;> cases options.keepPlaceholders <;> simp [Value.display]

theorem interpolate_of_not_single {text : List Char}
    (composite : ¬ ∃ inner, pieces text = [.placeholder inner]) :
    interpolate options c text = .ofText (fill options c.expanded text) := by
  rw [interpolate]
  split
  · next inner single => exact absurd ⟨inner, single⟩ composite
  · rfl

theorem compileKey_eq_keyText_iff (options : CompileOptions) (c : Context) (key : String) :
    compileKey options c key = keyText options c key ↔ KeepsText options c key := by
  rw [compileKey, KeepsText]
  by_cases placed : textHasPlaceholder key.toList = true
  · rw [if_pos placed]
    by_cases single : ∃ inner, pieces key.toList = [.placeholder inner]
    · obtain ⟨inner, single⟩ := single
      have shown : (interpolate options c key.toList).display = keyText options c key :=
        display_interpolate_placeholder single
      exact iff_of_true shown (.inr (.inl ⟨inner, single⟩))
    · simp [interpolate_of_not_single single, placed, single]
  · have plain : textHasPlaceholder key.toList = false := by simpa using placed
    have same : key = keyText options c key := by
      rw [keyText, fill_of_no_placeholder plain, String.ofList_toList]
    rw [if_neg placed]
    exact iff_of_true same (.inl plain)

theorem compileItems_eq (options : CompileOptions) (c : Context) (items : List Value) :
    compileItems options c items = items.map (compile options c) := by
  induction items with
  | nil => rfl
  | cons item rest ih => rw [compileItems, ih, List.map_cons]

/-- The entries of an object are put one after the other under the texts of their keys. -/
theorem compileEntries_eq (done : Entries Value) (entries : List (String × Value)) :
    compileEntries options c done entries =
      done.insertAll (entries.map fun entry =>
        (compileKey options c entry.1, compile options c entry.2)) := by
  induction entries generalizing done with
  | nil => rfl
  | cons entry rest ih => rw [compileEntries, ih]; rfl

theorem compile_object_eq (entries : List (String × Value)) :
    compile options c (.object entries) =
      .object (Entries.insertAll [] (entries.map fun entry =>
        (compileKey options c entry.1, compile options c entry.2))) := by
  rw [compile, compileEntries_eq]

end Template

end Docscript

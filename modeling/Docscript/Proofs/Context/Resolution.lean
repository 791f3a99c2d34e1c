import Docscript.Proofs.Path.Brackets
import Docscript.Proofs.Text.Trimming

set_option autoImplicit false

namespace Docscript

namespace Path

/-- Texts that are one name in a path. -/
def IsWord (text : List Char) : Prop := text ≠ [] ∧ '.' ∉ text ∧ '[' ∉ text ∧ ']' ∉ text

/-- A text between two quotes of one kind. -/
def Quotes (content inside : List Char) : Prop :=
  ∃ mark, (mark = '\'' ∨ mark = '"') ∧ content = mark :: (inside ++ [mark])

theorem unquote?_eq_some_iff {content inside : List Char} :
    unquote? content = some inside ↔ Quotes content inside := by
  cases content with
  | nil => simp [unquote?, Quotes]
  | cons mark rest =>
    rw [unquote?]
    constructor
    · intro read
      split at read
      · next quoted =>
        obtain ⟨marked, last⟩ := quoted
        refine ⟨mark, marked, ?_⟩
        rw [← Option.some.inj read, List.dropLast_append_getLast? mark last]
      · cases read
    · rintro ⟨other, marked, whole⟩
      obtain ⟨rfl, rfl⟩ := List.cons.inj whole
      rw [if_pos ⟨marked, List.getLast?_concat⟩, List.dropLast_concat]

theorem unquote?_eq_none_iff {content : List Char} :
    unquote? content = none ↔ ∀ inside, ¬ Quotes content inside := by
  rw [Option.eq_none_iff_forall_ne_some]
  exact forall_congr' fun inside => not_congr unquote?_eq_some_iff

end Path

namespace Context

/-- What the content of a bracket, without blanks around it, stands for: the text between its
quotes; without quotes itself, if it writes a position; else the text or the integer that it leads
to; and itself if it leads to neither. -/
inductive Denotes (c : Context) (content : List Char) : List Char → Prop where
  | quoted {inside : List Char} (quotes : Path.Quotes content inside) : Denotes c content inside
  | position {n : Nat} (bare : ∀ inside, ¬ Path.Quotes content inside)
      (written : Text.readIndex? content = some n) : Denotes c content content
  | text {s : String} (bare : ∀ inside, ¬ Path.Quotes content inside)
      (unwritten : Text.readIndex? content = none)
      (found : c.find? content = some (.string s)) : Denotes c content s.toList
  | integer {n : Int} (bare : ∀ inside, ¬ Path.Quotes content inside)
      (unwritten : Text.readIndex? content = none)
      (found : c.find? content = some (.int n)) : Denotes c content (Text.writeInt n)
  | literal (bare : ∀ inside, ¬ Path.Quotes content inside)
      (unwritten : Text.readIndex? content = none)
      (textless : ∀ s, c.find? content ≠ some (.string s))
      (numberless : ∀ n, c.find? content ≠ some (.int n)) : Denotes c content content

variable {c : Context} {path rest text key : List Char}

theorem denotes_key (c : Context) (text : List Char) :
    c.Denotes (Text.trim text) (Segment.key c.find? (.bracket text)) := by
  rw [Segment.key]
  cases unquoted : Path.unquote? (Text.trim text) with
  | some inside => exact .quoted (Path.unquote?_eq_some_iff.mp unquoted)
  | none =>
    have bare := Path.unquote?_eq_none_iff.mp unquoted
    cases read : Text.readIndex? (Text.trim text) with
    | some n => exact .position bare read
    | none =>
      dsimp only
      split
      · next found => exact .text bare read found
      · next found => exact .integer bare read found
      · next textless numberless => exact .literal bare read textless numberless

theorem Denotes.eq_key (denotes : c.Denotes (Text.trim text) key) :
    key = Segment.key c.find? (.bracket text) := by
  rw [Segment.key]
  cases denotes with
  | quoted quotes => rw [Path.unquote?_eq_some_iff.mpr quotes]
  | position bare written => rw [Path.unquote?_eq_none_iff.mpr bare, written]
  | text bare unwritten found => simp only [Path.unquote?_eq_none_iff.mpr bare, unwritten, found]
  | integer bare unwritten found =>
    rw [Value.int] at found
    simp only [Path.unquote?_eq_none_iff.mpr bare, unwritten, found]
  | literal bare unwritten textless numberless =>
    simp only [Path.unquote?_eq_none_iff.mpr bare, unwritten]
    split
    · next found => exact absurd found (textless _)
    · next found => exact absurd found (numberless _)
    · rfl

/-- The content of a bracket stands for one key, the one that the bracket is resolved to. -/
theorem denotes_iff : c.Denotes (Text.trim text) key ↔ key = Segment.key c.find? (.bracket text) :=
  ⟨Denotes.eq_key, fun same => same ▸ denotes_key c text⟩

/-- Contents of brackets are shorter than the path, so that each of them is looked up. -/
theorem stepKeys_of_segments {steps : List Segment} (segmented : Path.segments path = some steps) :
    c.stepKeys path steps = steps.map (Segment.key c.find?) := by
  apply List.map_congr_left
  intro segment member
  cases segment with
  | name text => rfl
  | bracket text =>
    have shorter : (Text.trim text).length < path.length :=
      Nat.lt_of_le_of_lt (Text.length_trim_le text)
        (Path.length_lt_of_mem_segments segmented member)
    simp only [Segment.key, if_pos shorter]

/-- Top-level names in which a path cannot be cut. -/
def Undivided (c : Context) : Prop :=
  ∀ name ∈ c.entries.keys, '.' ∉ name.toList ∧ '[' ∉ name.toList

instance (c : Context) : Decidable c.Undivided :=
  inferInstanceAs (Decidable (∀ name ∈ c.entries.keys, '.' ∉ name.toList ∧ '[' ∉ name.toList))

/-- Where no top-level name can be cut, a look-up is a walk along the segments of the path. -/
theorem find?_eq_walk (undivided : c.Undivided) (letter : ∃ ch ∈ path, ch ≠ '.') :
    c.find? path = (Path.segments path).bind fun steps =>
      c.toValue.descend? (steps.map (Segment.key c.find?)) := by
  have nonempty : path ≠ [] := by
    rintro rfl
    simp at letter
  cases stored : c.entries.get? (String.ofList path) with
  | some value =>
    -- A name of the context is a path of one segment.
    have member : String.ofList path ∈ c.entries.keys :=
      List.mem_map_of_mem (f := (·.1)) (Entries.mem_of_get? stored)
    obtain ⟨undotted, unopened⟩ := undivided _ member
    rw [String.toList_ofList] at undotted unopened
    rw [find?_of_name nonempty stored, Path.segments_word nonempty undotted unopened,
      Option.bind_some, List.map_singleton, Value.descend?_cons, toValue, Value.member?,
      Segment.key, stored, Option.bind_some, Value.descend?_nil]
  | none =>
    cases segmented : Path.segments path with
    | none =>
      rw [find?, if_neg (by simpa using nonempty), stored, segmented]
      rfl
    | some steps =>
      have some_segment : steps ≠ [] := by
        rintro rfl
        exact Path.segments_ne_some_nil letter segmented
      obtain ⟨first, others, rfl⟩ := List.exists_cons_of_ne_nil some_segment
      rw [find?_of_steps stored segmented, stepKeys_of_segments segmented, Option.bind_some]

theorem find?_append {segment : Segment} (undivided : c.Undivided) (letter : ∃ ch ∈ path, ch ≠ '.')
    (resumes : Path.Resumes rest) (single : Path.segments rest = some [segment]) :
    c.find? (path ++ rest) = (c.find? path).bind (·.member? (segment.key c.find?)) := by
  have longer : ∃ ch ∈ path ++ rest, ch ≠ '.' := by
    obtain ⟨ch, member, other⟩ := letter
    exact ⟨ch, List.mem_append_left rest member, other⟩
  rw [find?_eq_walk undivided letter, find?_eq_walk undivided longer, Path.segments_append resumes,
    single]
  cases Path.segments path with
  | none => rfl
  | some steps =>
    simp only [Option.map_some, Option.bind_some, List.map_append, List.map_singleton,
      Value.descend?_append]
    rfl

/-- Where no top-level name can be cut, a path is resolved segment by segment. One more name, or a
balanced text in brackets, leads to the member of what the path leads to that has this name, or that
the text stands for. A path with an open bracket leads nowhere, with one more segment or without. -/
theorem resolves_by_segments (c : Context) (path : String) (undivided : c.Undivided)
    (letter : ∃ ch ∈ path.toList, ch ≠ '.') :
    (∀ name : String, Path.IsWord name.toList →
      c.get? (path ++ "." ++ name) = (c.get? path).bind (·.member? name.toList)) ∧
      (∀ content : String, Path.Balanced content.toList →
        ∃ key, (∀ other, c.Denotes (Text.trim content.toList) other ↔ other = key) ∧
          c.get? (path ++ "[" ++ content ++ "]") = (c.get? path).bind (·.member? key)) ∧
      (Path.openAtEnd 0 path.toList ≠ 0 → c.get? path = none ∧
        (∀ name : String, Path.IsWord name.toList → c.get? (path ++ "." ++ name) = none) ∧
        ∀ content : String, Path.Balanced content.toList →
          c.get? (path ++ "[" ++ content ++ "]") = none) := by
  have named (name : String) (word : Path.IsWord name.toList) :
      c.get? (path ++ "." ++ name) = (c.get? path).bind (·.member? name.toList) := by
    obtain ⟨nonempty, undotted, unopened, unclosed⟩ := word
    have text : (path ++ "." ++ name).toList = path.toList ++ '.' :: name.toList := by simp
    rw [get?, get?, text, find?_append undivided letter (Path.resumes_dot unopened unclosed)
      (Path.segments_dot nonempty undotted unopened), Segment.key]
  have bracketed (content : String) (balanced : Path.Balanced content.toList) :
      c.get? (path ++ "[" ++ content ++ "]") =
        (c.get? path).bind (·.member? (Segment.key c.find? (.bracket content.toList))) := by
    have text : (path ++ "[" ++ content ++ "]").toList =
        path.toList ++ '[' :: (content.toList ++ [']']) := by simp
    rw [get?, get?, text, find?_append undivided letter (Path.resumes_bracket balanced)
      (Path.segments_bracket balanced)]
  refine ⟨named, ?_, ?_⟩
  · intro content balanced
    exact ⟨_, fun other => denotes_iff, bracketed content balanced⟩
  · intro opened
    have absent : c.get? path = none := by
      rw [get?, find?_eq_walk undivided letter, Path.segments_eq_none_iff.mpr opened,
        Option.bind_none]
    refine ⟨absent, ?_, ?_⟩
    · intro name word
      rw [named name word, absent, Option.bind_none]
    · intro content balanced
      rw [bracketed content balanced, absent, Option.bind_none]

/-- An integer names the row, and brackets in brackets name the column. -/
theorem resolves_by_segments_through_nested :
    let c : Context := ⟨[("i", .int 1), ("columns", .array [.string "id", .string "name"]),
      ("rows", .array [.object [], .object [("name", .string "Ada")]])]⟩
    c.Undivided ∧ Path.Balanced "columns[i]".toList ∧
      c.get? ("rows" ++ "." ++ "1" ++ "[" ++ "columns[i]" ++ "]") = some (.string "Ada") ∧
      c.get? ("rows[" ++ "." ++ "1") = none := by
  intro c
  have undivided : c.Undivided := by decide
  have inner : Path.Balanced "i".toList := Path.balanced_of_not_mem (by decide) (by decide)
  have front : Path.Balanced "columns".toList :=
    Path.balanced_of_not_mem (by decide) (by decide)
  have outer : Path.Balanced "columns[i]".toList := front.append (.nested inner .nil)
  have row : c.get? ("rows" ++ "." ++ "1") = some (.object [("name", .string "Ada")]) := by
    have rows : c.get? "rows" = some (.array [.object [], .object [("name", .string "Ada")]]) :=
      find?_of_name (by decide) rfl
    have word : Path.IsWord "1".toList := by simp [Path.IsWord]
    rw [(resolves_by_segments c "rows" undivided ⟨'r', by decide⟩).1 "1" word, rows]
    rfl
  have column : c.get? "columns[i]" = some (.string "name") := by
    have text : "columns[i]" = "columns" ++ "[" ++ "i" ++ "]" := by decide
    obtain ⟨key, only, found⟩ :=
      (resolves_by_segments c "columns" undivided ⟨'c', by decide⟩).2.1 "i" inner
    have columns : c.get? "columns" = some (.array [.string "id", .string "name"]) :=
      find?_of_name (by decide) rfl
    have position : c.Denotes "i".toList (Text.writeInt 1) :=
      .integer (Path.unquote?_eq_none_iff.mp (by decide)) (by decide)
        (find?_of_name (by decide) rfl)
    rw [text, found, columns, ← (only _).mp position]
    rfl
  obtain ⟨key, only, found⟩ :=
    (resolves_by_segments c ("rows" ++ "." ++ "1") undivided ⟨'r', by decide⟩).2.1 "columns[i]"
      outer
  have name : c.Denotes "columns[i]".toList "name".toList :=
    .text (Path.unquote?_eq_none_iff.mp (by decide)) (by decide) column
  have open_end := (resolves_by_segments c "rows[" undivided ⟨'r', by decide⟩).2.2 (by decide)
  refine ⟨undivided, outer, ?_, open_end.2.1 "1" (by simp [Path.IsWord])⟩
  rw [found, row, ← (only _).mp name]
  rfl

/-- Quotes keep the text between them from being trimmed or looked up. -/
theorem key_of_quotes {content inside : List Char} (quotes : Path.Quotes content inside)
    (lookUp : List Char → Option Value) : Segment.key lookUp (.bracket content) = inside := by
  have trimmed : Text.trim content = content := by
    obtain ⟨mark, marked, rfl⟩ := quotes
    have visible : Text.isBlank mark = false := by rcases marked with rfl | rfl <;> decide
    rw [Text.trim_eq_self_iff, Text.trimStart_eq_self_iff, Text.trimEnd_eq_self_iff,
      ← List.cons_append, List.getLast?_concat]
    exact ⟨fun c first => Option.some.inj first ▸ visible,
      fun c last => Option.some.inj last ▸ visible⟩
  simp only [Segment.key, trimmed, Path.unquote?_eq_some_iff.mpr quotes]

theorem find?_quoted {name content inside : List Char} (word : Path.IsWord name)
    (quotes : Path.Quotes content inside) (balanced : Path.Balanced content)
    (unnamed : c.entries.get? (String.ofList (name ++ '[' :: (content ++ [']']))) = none) :
    c.find? (name ++ '[' :: (content ++ [']'])) = c.toValue.descend? [name, inside] := by
  obtain ⟨nonempty, undotted, unopened, -⟩ := word
  have segmented : Path.segments (name ++ '[' :: (content ++ [']'])) =
      some [.name name, .bracket content] := by
    rw [Path.segments_append (Path.resumes_bracket balanced), Path.segments_bracket balanced,
      Path.segments_word nonempty undotted unopened]
    rfl
  rw [find?_of_steps unnamed segmented, stepKeys, List.map_cons, List.map_singleton,
    key_of_quotes quotes, Segment.key]

/-- A text in quotes names the entry that is stored under it, whatever the text has in it, if its
brackets match and no top-level name is the whole path. -/
theorem get?_quoted (c : Context) (name key : String) (value : Value)
    (stored : c.toValue.follow? [name, key] = some value)
    (word : Path.IsWord name.toList) (balanced : Path.Balanced key.toList)
    (unnamed : c.entries.get? (name ++ "['" ++ key ++ "']") = none) :
    c.get? (name ++ "['" ++ key ++ "']") = some value := by
  have quotes : Path.Quotes ('\'' :: (key.toList ++ ['\''])) key.toList := ⟨'\'', .inl rfl, rfl⟩
  have content : Path.Balanced ('\'' :: (key.toList ++ ['\''])) := by
    have mark : Path.Balanced ['\''] := .plain (by decide) (by decide) .nil
    exact mark.append (balanced.append mark)
  have text : (name ++ "['" ++ key ++ "']").toList =
      name.toList ++ '[' :: ('\'' :: (key.toList ++ ['\'']) ++ [']']) := by simp
  rw [get?, text, find?_quoted word quotes content (by rwa [← text, String.ofList_toList])]
  exact Value.descend?_of_follow? stored

/-- A key with dots, blanks, a quote and brackets in it. -/
theorem get?_quoted_of_marks :
    let c : Context := ⟨[("a.b", .null), ("a", .object [(" it's [b.c] ", .int 1)])]⟩
    c.toValue.follow? ["a", " it's [b.c] "] = some (.int 1) ∧
      Path.Balanced " it's [b.c] ".toList ∧
      c.get? ("a" ++ "['" ++ " it's [b.c] " ++ "']") = some (.int 1) := by
  intro c
  have stored : c.toValue.follow? ["a", " it's [b.c] "] = some (.int 1) := by rfl
  have front : Path.Balanced " it's ".toList := Path.balanced_of_not_mem (by decide) (by decide)
  have inner : Path.Balanced "b.c".toList := Path.balanced_of_not_mem (by decide) (by decide)
  have back : Path.Balanced " ".toList := Path.balanced_of_not_mem (by decide) (by decide)
  have balanced : Path.Balanced " it's [b.c] ".toList := front.append (.nested inner back)
  exact ⟨stored, balanced,
    get?_quoted c "a" " it's [b.c] " (.int 1) stored (by simp [Path.IsWord]) balanced rfl⟩

/-- A closing bracket between the quotes closes the bracket around them, and an empty name makes no
segment in front of a bracket. -/
theorem not_forall_get?_quoted :
    (¬ ∀ (c : Context) (name key : String) (value : Value),
      c.toValue.follow? [name, key] = some value → Path.IsWord name.toList →
      c.entries.get? (name ++ "['" ++ key ++ "']") = none →
        c.get? (name ++ "['" ++ key ++ "']") = some value) ∧
    ¬ ∀ (c : Context) (name key : String) (value : Value),
      c.toValue.follow? [name, key] = some value →
      '.' ∉ name.toList → '[' ∉ name.toList → ']' ∉ name.toList → Path.Balanced key.toList →
      c.entries.get? (name ++ "['" ++ key ++ "']") = none →
        c.get? (name ++ "['" ++ key ++ "']") = some value := by
  let c : Context := ⟨[("a", .object [("]", .int 1)]), ("", .object [("b", .int 2)])]⟩
  constructor
  · intro always
    have claimed := always c "a" "]" (.int 1) rfl (by simp [Path.IsWord]) rfl
    have segmented : Path.segments "a[']']".toList =
        some [.name "a".toList, .bracket "'".toList, .name "']".toList] := rfl
    have keys : ∃ key, c.stepKeys "a[']']".toList
        [.name "a".toList, .bracket "'".toList, .name "']".toList] =
          ["a".toList, key, "']".toList] := ⟨_, rfl⟩
    obtain ⟨key, keys⟩ := keys
    -- Whatever the bracket stands for, the path goes on below a number.
    have lost : c.toValue.descend? ["a".toList, key, "']".toList] = none := by
      have entered : c.toValue.member? "a".toList = some (.object [("]", .int 1)]) := rfl
      rw [Value.descend?_cons, entered, Option.bind_some, Value.descend?_cons, Value.member?,
        Entries.get?]
      split <;> rfl
    have text : "a" ++ "['" ++ "]" ++ "']" = "a[']']" := by decide
    rw [text, get?, find?_of_steps rfl segmented, keys, lost] at claimed
    cases claimed
  · intro always
    have claimed := always c "" "b" (.int 2) rfl (by decide) (by decide) (by decide)
      (Path.balanced_of_not_mem (by decide) (by decide)) rfl
    have segmented : Path.segments "['b']".toList = some [.bracket "'b'".toList] := rfl
    have quotes : Path.Quotes "'b'".toList "b".toList := ⟨'\'', .inl rfl, rfl⟩
    have keys : c.stepKeys "['b']".toList [.bracket "'b'".toList] = ["b".toList] := by
      rw [stepKeys, List.map_singleton, key_of_quotes quotes]
    have text : "" ++ "['" ++ "b" ++ "']" = "['b']" := by decide
    rw [text, get?, find?_of_steps rfl segmented, keys] at claimed
    cases claimed

end Context

end Docscript

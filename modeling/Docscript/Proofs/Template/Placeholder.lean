import Docscript.Proofs.Context.Unfolding
import Docscript.Template

set_option autoImplicit false

namespace Docscript

namespace Segment

/-- What is looked up for a segment: the content of a bracket that is neither quoted nor a
position. -/
def content? : Segment → Option (List Char)
  | .name _ => none
  | .bracket text =>
    match Path.unquote? (Text.trim text), Text.readIndex? (Text.trim text) with
    | none, none => some (Text.trim text)
    | _, _ => none

/-- The key that the value of a content stands for, if it is a text or an integer. -/
def keyOf? : Option Value → Option (List Char)
  | some (.string s) => some s.toList
  | some (.number (.int n)) => some (Text.writeInt n)
  | _ => none

theorem key_of_content? {segment : Segment} {content : List Char}
    (looked : segment.content? = some content) (lookUp : List Char → Option Value) :
    segment.key lookUp = (keyOf? (lookUp content)).getD content := by
  cases segment with
  | name text => cases looked
  | bracket text =>
    rw [content?] at looked
    split at looked
    · next unquoted unnumbered =>
      cases looked
      simp only [key, unquoted, unnumbered]
      cases lookUp (Text.trim text) with
      | none => rfl
      | some value =>
        cases value with
        | number n => cases n <;> rfl
        | _ => rfl
    · cases looked

theorem key_of_content?_eq_none {segment : Segment} (looked : segment.content? = none)
    (first second : List Char → Option Value) : segment.key first = segment.key second := by
  cases segment with
  | name text => rfl
  | bracket text =>
    rw [content?] at looked
    simp only [key]
    split
    · rfl
    · rfl
    · next unquoted unnumbered =>
      rw [unquoted, unnumbered] at looked
      cases looked

theorem key_congr {segment : Segment} {first second : List Char → Option Value}
    (same : ∀ content, segment.content? = some content →
      keyOf? (first content) = keyOf? (second content)) :
    segment.key first = segment.key second := by
  cases looked : segment.content? with
  | none => exact key_of_content?_eq_none looked first second
  | some content => rw [key_of_content? looked, key_of_content? looked, same content looked]

end Segment

namespace Context

/-- The unfolding of dotted names leaves what a path stands for as it is.

A path that is a top-level name has to lead there also by its parts. Any other path starts at a
name that is not unfolded and is followed to some `node` through objects, and from there on in any
way; no name unfolds under the path itself, contents of brackets that stand for a key are
undisturbed in turn, and the other ones do not come to stand for a key. In both cases the other
entries leave the value, or the node, where it is. -/
inductive Undisturbed (c : Context) : List Char → Prop where
  | stored {path : List Char} {before after : Entries Value} {value : Value}
      (split : c.entries = before ++ (String.ofList path, value) :: after)
      (reachable : isDotted (String.ofList path) = true →
        '[' ∉ path ∧ Text.dottedParts path ≠ [])
      (settled : Settled before after (unfoldedNames (String.ofList path)) value) :
      Undisturbed c path
  | followed {path : List Char} {first : Segment} {rest : List Segment} {start : String}
      {inner below : List String} {before after : Entries Value} {value node : Value}
      (unnamed : c.entries.get? (String.ofList path) = none)
      (segmented : Path.segments path = some (first :: rest))
      (keys : (c.stepKeys path (first :: rest)).map String.ofList = start :: (inner ++ below))
      (split : c.entries = before ++ (start, value) :: after)
      (undotted : isDotted start = false)
      (reached : value.follow? inner = some node)
      (settled : Settled before after (start :: inner) node)
      (unhidden : ∀ entry ∈ c.entries, (unfoldedNames entry.1).head? ≠ some (String.ofList path))
      (keyed : ∀ segment ∈ first :: rest, ∀ content, segment.content? = some content →
        Segment.keyOf? (c.find? content) ≠ none → Undisturbed c content)
      (unkeyed : ∀ segment ∈ first :: rest, ∀ content, segment.content? = some content →
        Segment.keyOf? (c.find? content) = none →
          Segment.keyOf? (c.expanded.find? content) = none) :
      Undisturbed c path

theorem expanded_of_hasDotted {c : Context} (dotted : c.hasDotted = true) :
    c.expanded = ⟨c.entries.foldl unfoldEntry []⟩ := by
  rw [expanded, if_pos dotted]

theorem stepKeys_congr {c d : Context} {path : List Char} {steps : List Segment}
    (same : ∀ segment ∈ steps, ∀ content, segment.content? = some content →
      Segment.keyOf? (c.find? content) = Segment.keyOf? (d.find? content)) :
    c.stepKeys path steps = d.stepKeys path steps := by
  apply List.map_congr_left
  intro segment member
  apply Segment.key_congr
  intro content looked
  by_cases shorter : content.length < path.length
  · simpa only [if_pos shorter] using same segment member content looked
  · simp only [if_neg shorter]

theorem find?_expanded_of_undisturbed {c : Context} {path : List Char} {value : Value}
    (unique : c.toValue.UniqueKeys) (dotted : c.hasDotted = true)
    (undisturbed : c.Undisturbed path) (found : c.find? path = some value) :
    c.expanded.find? path = some value := by
  have each : ∀ entry ∈ c.entries, entry.2.UniqueKeys := by
    rw [toValue, Value.UniqueKeys] at unique
    exact fun entry => Value.uniqueKeys_of_mem unique.2
  induction undisturbed generalizing value with
  | @stored path before after held split reachable settled =>
    have nonempty := nonempty_of_find? found
    have known := find?_of_name nonempty (get?_of_split unique split)
    rw [known, Option.some.injEq] at found
    subst found
    have named : unfoldedNames (String.ofList path) ≠ [] := by
      rw [unfoldedNames]
      split
      · next inner => simpa [names] using (reachable inner).2
      · simp
    have put : c.expanded.toValue.follow? (unfoldedNames (String.ofList path)) = some held := by
      rw [expanded_of_hasDotted dotted, toValue, split]
      apply follow?_foldl_of_settled (split ▸ each) settled named
      simpa using follow?_unfolding (String.ofList path, held) named []
    by_cases inner : isDotted (String.ofList path) = true
    · have absent : c.expanded.entries.get? (String.ofList path) = none := by
        rw [expanded_of_hasDotted dotted]
        exact get?_foldl_unfoldEntry_of_isDotted inner
      apply find?_of_follow? (reachable inner).1 absent (reachable inner).2
      rw [unfoldedNames, if_pos inner, names, String.toList_ofList] at put
      exact put
    · apply find?_of_name nonempty
      rw [unfoldedNames, if_neg inner] at put
      obtain ⟨entries, below, whole, stored, ended⟩ := Value.follow?_cons_eq_some put
      rw [toValue, Value.object.injEq] at whole
      rw [Value.follow?_nil, Option.some.injEq] at ended
      rw [whole, stored, ended]
  | @followed path first rest start inner below before after held node unnamed segmented keys split
      undotted reached settled unhidden _ unkeyed ih =>
    have absent : c.expanded.entries.get? (String.ofList path) = none := by
      rw [expanded_of_hasDotted dotted]
      exact get?_foldl_unfoldEntry_of_ne [] unhidden rfl
    have steps : c.expanded.stepKeys path (first :: rest) = c.stepKeys path (first :: rest) := by
      apply stepKeys_congr
      intro segment member content looked
      cases key : Segment.keyOf? (c.find? content) with
      | none => exact unkeyed segment member content looked key
      | some text =>
        cases known : c.find? content with
        | none => rw [known] at key; cases key
        | some value =>
          rw [ih segment member content looked (by simp [key]) known, ← known, key]
    have row : c.stepKeys path (first :: rest) =
        (start :: inner).map String.toList ++ below.map String.toList := by
      have texts := congrArg (List.map String.toList) keys
      rw [List.map_map, Function.comp_def] at texts
      simpa [String.toList_ofList] using texts
    have single : unfoldedNames start = [start] := by
      rw [unfoldedNames, if_neg (by simp [undotted])]
    have put : c.expanded.toValue.follow? (start :: inner) = some node := by
      rw [expanded_of_hasDotted dotted, toValue, split]
      apply follow?_foldl_of_settled (split ▸ each) settled (by simp)
      have entered := follow?_unfolding (start, held) (by simp [single]) inner
      rw [single] at entered
      exact entered.trans reached
    have held : c.toValue.follow? (start :: inner) = some node := by
      rw [toValue, Value.follow?_object_cons, get?_of_split unique split]
      exact reached
    rw [find?_of_steps unnamed segmented, row, Value.descend?_append,
      Value.descend?_of_follow? held] at found
    rw [find?_of_steps absent segmented, steps, row, Value.descend?_append,
      Value.descend?_of_follow? put]
    exact found

end Context

namespace Template

theorem inner?_append_brace {inner : List Char} (nonempty : inner ≠ [])
    (unbraced : ∀ c ∈ inner, isBrace c = false) (rest : List Char) :
    inner? (inner ++ '}' :: rest) = some (inner, rest) := by
  have plain : ∀ c ∈ inner, (!isBrace c) = true := by
    intro c member
    simp [unbraced c member]
  have front : (inner ++ '}' :: rest).takeWhile (!isBrace ·) = inner := by
    rw [List.takeWhile_append_of_pos plain]
    simp [isBrace]
  have back : (inner ++ '}' :: rest).dropWhile (!isBrace ·) = '}' :: rest := by
    rw [List.dropWhile_append_of_pos plain]
    simp [isBrace]
  rw [inner?, back, front]
  simp [nonempty]

theorem pieces_placeholder_append {inner : List Char} (nonempty : inner ≠ [])
    (unbraced : ∀ c ∈ inner, isBrace c = false) (rest : List Char) :
    pieces ((Piece.placeholder inner).source ++ rest) = .placeholder inner :: pieces rest := by
  have read := inner?_append_brace nonempty unbraced rest
  have text : (Piece.placeholder inner).source ++ rest = '$' :: '{' :: (inner ++ '}' :: rest) := by
    simp [Piece.source]
  rw [text, pieces]
  split
  · next after found =>
    rw [read, Option.some.injEq, Prod.mk.injEq] at found
    rw [← found.1, ← found.2]
  · next found =>
    rw [read] at found
    cases found

theorem pieces_placeholder {inner : List Char} (nonempty : inner ≠ [])
    (unbraced : ∀ c ∈ inner, isBrace c = false) :
    pieces (Piece.placeholder inner).source = [.placeholder inner] := by
  have alone := pieces_placeholder_append nonempty unbraced []
  rwa [List.append_nil, pieces] at alone

/-- The text of a placeholder with a path and nothing else. -/
def placeholderOf (path : String) : String := String.ofList (Piece.placeholder path.toList).source

example : placeholderOf "user.name" = "${user.name}" := by decide

/-- A string that is one placeholder stands for what its path finds among unfolded names, and for
itself if that is nothing. -/
theorem compile_placeholder (c : Context) {path : String} (nonempty : path ≠ "")
    (trimmed : Text.trim path.toList = path.toList)
    (unbraced : ∀ ch ∈ path.toList, isBrace ch = false) :
    compile {} c (.string (placeholderOf path)) =
      (c.expanded.get? path).getD (.string (placeholderOf path)) := by
  have chars : (placeholderOf path).toList = (Piece.placeholder path.toList).source :=
    String.toList_ofList
  have single := pieces_placeholder (show path.toList ≠ [] by simpa using nonempty) unbraced
  have filled : textHasPlaceholder (Piece.placeholder path.toList).source = true := by
    rw [textHasPlaceholder, single]
    rfl
  rw [compile, compileText, chars, if_pos filled, interpolate, single]
  simp only [trimmed, Context.get?]
  cases c.expanded.find? path.toList with
  | none => rw [Option.getD_none, ← chars, String.ofList_toList]
  | some value => cases value <;> rfl

/-- A placeholder stands for what its path finds in the context, if no name of the context is
unfolded or the unfolding leaves the path undisturbed. -/
theorem compile_placeholder_of_get? (c : Context) (path : String) (value : Value)
    (unique : c.toValue.UniqueKeys) (trimmed : Text.trim path.toList = path.toList)
    (unbraced : ∀ ch ∈ path.toList, isBrace ch = false) (found : c.get? path = some value)
    (calm : c.hasDotted = false ∨ c.Undisturbed path.toList) :
    compile {} c (.string (placeholderOf path)) = value := by
  have nonempty : path ≠ "" := by
    have chars := Context.nonempty_of_find? found
    simpa using chars
  have kept : c.expanded.get? path = some value := by
    by_cases dotted : c.hasDotted = true
    · rcases calm with undotted | undisturbed
      · exact absurd dotted (by simp [undotted])
      · exact Context.find?_expanded_of_undisturbed unique dotted undisturbed found
    · rw [Context.expanded, if_neg dotted, found]
  rw [compile_placeholder c nonempty trimmed unbraced, kept, Option.getD_some]

/-- A path through a bracket and an array, beside a name that is unfolded. -/
theorem compile_placeholder_of_get?_through_row :
    let c : Context := ⟨[("row", .int 1), ("user.name", .string "Ada"),
      ("rows", .array [.object [("id", .int 1)], .object [("id", .int 2)]])]⟩
    c.toValue.UniqueKeys ∧ c.hasDotted = true ∧ c.Undisturbed "rows[row].id".toList ∧
      compile {} c (.string (placeholderOf "rows[row].id")) = .int 2 := by
  intro c
  have unique : c.toValue.UniqueKeys := by
    simp [c, Context.toValue, Value.UniqueKeys, Value.UniqueKeysEntries, Value.UniqueKeysItems,
      Entries.keys, Value.int]
  have row : c.find? "row".toList = some (.int 1) := Context.find?_of_name (by decide) rfl
  have bracket : (Segment.bracket "row".toList).content? = some "row".toList := by decide
  have key : Segment.keyOf? (c.find? "row".toList) = some "1".toList := by
    rw [row]
    rfl
  have segmented : Path.segments "rows[row].id".toList =
      some [.name "rows".toList, .bracket "row".toList, .name "id".toList] := rfl
  have keys : c.stepKeys "rows[row].id".toList
      [.name "rows".toList, .bracket "row".toList, .name "id".toList] =
        ["rows".toList, "1".toList, "id".toList] := by
    have shorter : "row".toList.length < "rows[row].id".toList.length := by decide
    simp only [Context.stepKeys, List.map_cons, List.map_nil, Segment.key_of_content? bracket,
      if_pos shorter, key, Option.getD_some]
    rfl
  have found : c.get? "rows[row].id" = some (.int 2) := by
    rw [Context.get?, Context.find?_of_steps rfl segmented, keys]
    rfl
  have contents : ∀ segment ∈ [Segment.name "rows".toList, .bracket "row".toList,
      .name "id".toList], ∀ content, segment.content? = some content → content = "row".toList := by
    intro segment member content looked
    simp only [List.mem_cons, List.not_mem_nil, or_false] at member
    rcases member with rfl | rfl | rfl
    · cases looked
    · rw [bracket, Option.some.injEq] at looked
      exact looked.symm
    · cases looked
  have undisturbed : c.Undisturbed "rows[row].id".toList := by
    refine @Context.Undisturbed.followed c "rows[row].id".toList (.name "rows".toList)
      [.bracket "row".toList, .name "id".toList] "rows" [] ["1", "id"]
      [("row", .int 1), ("user.name", .string "Ada")] [] _ _ rfl segmented (by rw [keys]; rfl) rfl
      (by decide) rfl ⟨by simp, fun shape => by cases shape⟩ (by decide) ?_ ?_
    · intro segment member content looked _
      rw [contents segment member content looked]
      exact @Context.Undisturbed.stored c "row".toList [] _ _ rfl (by decide)
        ⟨by decide, fun shape => by cases shape⟩
    · intro segment member content looked absent
      rw [contents segment member content looked, key] at absent
      cases absent
  exact ⟨unique, by decide, undisturbed, compile_placeholder_of_get? c "rows[row].id" (.int 2)
    unique (by decide) (by simp [isBrace]) found (.inr undisturbed)⟩

/-- An object that a dotted name adds to is not what its own name finds. -/
theorem not_forall_compile_placeholder :
    ¬ ∀ (c : Context) (path : String) (value : Value), c.toValue.UniqueKeys → path ≠ "" →
      Text.trim path.toList = path.toList → (∀ ch ∈ path.toList, isBrace ch = false) →
      c.get? path = some value →
        compile {} c (.string (placeholderOf path)) = value := by
  intro always
  let c : Context := ⟨[("a.b", .int 1), ("a", .object [("c", .int 2)])]⟩
  have unbraced : ∀ ch ∈ "a".toList, isBrace ch = false := by simp [isBrace]
  have claimed := always c "a" (.object [("c", .int 2)])
    (by
      simp [c, Context.toValue, Value.UniqueKeys, Value.UniqueKeysEntries, Entries.keys,
        Value.int])
    (by decide) (by decide) unbraced (Context.find?_of_name (by decide) rfl)
  have merged : c.expanded.get? "a" = some (.object [("b", .int 1), ("c", .int 2)]) :=
    Context.find?_of_name (by decide) rfl
  rw [compile_placeholder c (by decide) (by decide) unbraced, merged, Option.getD_some] at claimed
  simp at claimed

end Template

end Docscript

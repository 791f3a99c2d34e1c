import Docscript.Text.Blank
import Docscript.Text.Numeral
import Docscript.Value

/- A path is cut into segments without looking into any data. What a bracket stands for depends on
the data and is settled by `Segment.key`, given a way to look up names. -/

set_option autoImplicit false

namespace Docscript

/-- A step of a path: a name, or what stands between a bracket and the one that closes it. -/
inductive Segment where
  | name (text : List Char)
  | bracket (text : List Char)
  deriving DecidableEq

namespace Path

/-- The name that was collected, last character first; none if there is no character. -/
def collected (pending : List Char) : List Segment :=
  if pending.isEmpty then [] else [.name pending.reverse]

mutual

/-- Segments from a place that no bracket encloses. -/
def segmentsOutside (pending : List Char) : List Char → Option (List Segment)
  | [] => some (collected pending)
  | c :: rest =>
    if c = '.' then (segmentsOutside [] rest).map (collected pending ++ ·)
    else if c = '[' then (segmentsInside 0 [] rest).map (collected pending ++ ·)
    else segmentsOutside (c :: pending) rest

/-- Segments from a place within a bracket, with `depth` further brackets open inside it. -/
def segmentsInside (depth : Nat) (pending : List Char) : List Char → Option (List Segment)
  | [] => none
  | c :: rest =>
    if c = '[' then segmentsInside (depth + 1) (c :: pending) rest
    else if c = ']' then
      match depth with
      | 0 => (segmentsOutside [] rest).map (.bracket pending.reverse :: ·)
      | depth + 1 => segmentsInside depth (c :: pending) rest
    else segmentsInside depth (c :: pending) rest

end

/-- The segments of a path; none if a bracket is left open. -/
def segments (path : List Char) : Option (List Segment) := segmentsOutside [] path

/-- The text between two quotes of one kind. -/
def unquote? : List Char → Option (List Char)
  | quote :: rest =>
    if (quote = '\'' ∨ quote = '"') ∧ rest.getLast? = some quote then some rest.dropLast else none
  | [] => none

end Path

/-- The key that a segment stands for: a name itself, a bracket its quoted text, its position, or
the text or integer that its content names, and failing these its content. -/
def Segment.key (lookUp : List Char → Option Value) : Segment → List Char
  | .name text => text
  | .bracket text =>
    let trimmed := Text.trim text
    match Path.unquote? trimmed, Text.readIndex? trimmed with
    | some inside, _ => inside
    | none, some _ => trimmed
    | none, none =>
      match lookUp trimmed with
      | some (.string s) => s.toList
      | some (.number (.int n)) => Text.writeInt n
      | _ => trimmed

/-- The part of a value under a key: the entry of an object, or the item of an array at the
position that the key writes. -/
def Value.member? (value : Value) (key : List Char) : Option Value :=
  match value with
  | .object entries => Entries.get? entries (String.ofList key)
  | .array items => (Text.readIndex? key).bind (items[·]?)
  | _ => none

/-- The value at the end of a row of keys. -/
def Value.descend? (value : Value) (keys : List (List Char)) : Option Value :=
  keys.foldl (fun reached key => reached.bind (·.member? key)) (some value)

end Docscript

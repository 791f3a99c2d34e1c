import Docscript.Context
import Docscript.Json.Writer

set_option autoImplicit false

namespace Docscript

/-- Whether a placeholder whose path is unknown stays as it is, or becomes the empty text. -/
structure CompileOptions where
  keepPlaceholders : Bool := true
  deriving DecidableEq

namespace Template

/-- A part of a text: one character, or a placeholder with the text between its braces. -/
inductive Piece where
  | literal (c : Char)
  | placeholder (inner : List Char)
  deriving DecidableEq

namespace Piece

/-- The text of a part as it was written. -/
def source : Piece → List Char
  | literal c => [c]
  | placeholder inner => '$' :: '{' :: inner ++ ['}']

def isPlaceholder : Piece → Bool
  | literal _ => false
  | placeholder _ => true

end Piece

def isBrace (c : Char) : Bool := c == '{' || c == '}'

/-- The text up to a closing brace, if it is not empty and has no brace in it, and the rest. -/
def inner? (text : List Char) : Option (List Char × List Char) :=
  let inner := text.takeWhile (!isBrace ·)
  match text.dropWhile (!isBrace ·) with
  | '}' :: rest => if inner.isEmpty then none else some (inner, rest)
  | _ => none

theorem length_of_inner? {text inner rest : List Char} (found : inner? text = some (inner, rest)) :
    rest.length < text.length := by
  have whole := congrArg List.length
    (List.takeWhile_append_dropWhile (p := (!isBrace ·)) (l := text))
  simp only [inner?] at found
  split at found
  · next tail after =>
    split at found
    · simp at found
    · simp only [Option.some.injEq, Prod.mk.injEq] at found
      rw [after, List.length_append, List.length_cons] at whole
      rw [← found.2]
      omega
  · simp at found

/-- The parts of a text, placeholders being found from left to right. -/
def pieces : List Char → List Piece
  | [] => []
  | '$' :: '{' :: rest =>
    match _found : inner? rest with
    | some (inner, after) => .placeholder inner :: pieces after
    | none => .literal '$' :: pieces ('{' :: rest)
  | c :: rest => .literal c :: pieces rest
termination_by text => text.length
decreasing_by
  · have := length_of_inner? _found
    simp only [List.length_cons]
    omega
  · simp
  · simp

def textHasPlaceholder (text : List Char) : Bool := (pieces text).any Piece.isPlaceholder

mutual

/-- Whether some string or key of a value has a placeholder. -/
def hasPlaceholders : Value → Bool
  | .string text => textHasPlaceholder text.toList
  | .array items => hasPlaceholdersItems items
  | .object entries => hasPlaceholdersEntries entries
  | _ => false

def hasPlaceholdersItems : List Value → Bool
  | [] => false
  | item :: rest => hasPlaceholders item || hasPlaceholdersItems rest

def hasPlaceholdersEntries : List (String × Value) → Bool
  | [] => false
  | (key, value) :: rest =>
    textHasPlaceholder key.toList || hasPlaceholders value || hasPlaceholdersEntries rest

end

/-- What a part of a larger text becomes. The scope is an expanded context. -/
def Piece.fill (options : CompileOptions) (scope : Context) : Piece → List Char
  | .literal c => [c]
  | .placeholder inner =>
    match scope.find? (Text.trim inner) with
    | some value => value.display.toList
    | none =>
      if options.keepPlaceholders then (Piece.placeholder inner).source else []

/-- A text with its placeholders filled in. -/
def fill (options : CompileOptions) (scope : Context) (text : List Char) : List Char :=
  (pieces text).flatMap (Piece.fill options scope)

/-- The value of a text with placeholders. A text that is one placeholder has the value found for
it; otherwise the filled text is read as a scalar. -/
def interpolate (options : CompileOptions) (c : Context) (text : List Char) : Value :=
  let scope := c.expanded
  match pieces text with
  | [.placeholder inner] =>
    match scope.find? (Text.trim inner), options.keepPlaceholders with
    | some .null, false => .string ""
    | some value, _ => value
    | none, true => .string (String.ofList text)
    | none, false => .string ""
  | _ => .ofText (fill options scope text)

/-- The value of a string. Without placeholders it is a path if it has no blank, and stands for
itself if the path is unknown; with a blank it is a scalar. -/
def compileText (options : CompileOptions) (c : Context) (text : String) : Value :=
  let chars := text.toList
  if textHasPlaceholder chars then interpolate options c chars
  else if chars.any Text.isBlank then .ofText chars
  else (c.get? text).getD (.string text)

/-- A key with its placeholders filled in. -/
def compileKey (options : CompileOptions) (c : Context) (key : String) : String :=
  if textHasPlaceholder key.toList then (interpolate options c key.toList).display else key

mutual

/-- A template with the values of a context in it. Keys that become equal share one entry. -/
def compile (options : CompileOptions) (c : Context) : Value → Value
  | .string text => compileText options c text
  | .array items => .array (compileItems options c items)
  | .object entries => .object (compileEntries options c [] entries)
  | .null => .null
  | .bool b => .bool b
  | .number n => .number n

def compileItems (options : CompileOptions) (c : Context) : List Value → List Value
  | [] => []
  | item :: rest => compile options c item :: compileItems options c rest

def compileEntries (options : CompileOptions) (c : Context) (done : Entries Value) :
    List (String × Value) → Entries Value
  | [] => done
  | (key, value) :: rest =>
    compileEntries options c
      (done.insert (compileKey options c key) (compile options c value)) rest

end

end Template

end Docscript

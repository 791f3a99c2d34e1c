import Docscript.Text.Blank
import Docscript.Text.Numeral

set_option autoImplicit false

namespace Docscript

/-- The role of a key in a condition block, with its expression. -/
inductive ConditionKey where
  | ifTrue (expression : String)
  | elseIf (expression : String)
  | otherwise
  deriving DecidableEq

namespace ConditionKey

/-- Reads `if <expression>`, `else if <expression>` and `else`. -/
def parse? (key : String) : Option ConditionKey :=
  let trimmed := Text.trim key.toList
  if trimmed = "else".toList then some .otherwise
  else match Text.dropLead? "else if " trimmed, Text.dropLead? "if " trimmed with
    | some rest, _ =>
      let expression := Text.trim rest
      if expression.isEmpty then none else some (.elseIf (String.ofList expression))
    | none, some rest =>
      let expression := Text.trim rest
      if expression.isEmpty then none else some (.ifTrue (String.ofList expression))
    | none, none => none

end ConditionKey

/-- An end of a counted loop: an integer, or the path of one. -/
inductive Bound where
  | literal (value : Int64)
  | path (path : String)
  deriving DecidableEq

namespace Bound

/-- A bound neither starts nor ends with a dot. -/
def parse? (text : List Char) : Option Bound :=
  if text.isEmpty ∨ text.head? = some '.' ∨ text.getLast? = some '.' then none
  else match Text.readInt64? text with
    | some n => some (.literal n)
    | none => some (.path (String.ofList text))

end Bound

inductive Loop where
  | times (count : Bound) (counter : Option String)
  | range (counter : String) (start stop : Bound) (inclusive : Bool)
  | array (item : String) (path : String) (index : Option String)
  | object (key : String) (path : String) (index : Option String)
  deriving DecidableEq

inductive LoopKind where
  | times
  | range
  | array
  | object
  deriving DecidableEq

namespace Loop

def kind : Loop → LoopKind
  | times _ _ => .times
  | range _ _ _ _ => .range
  | array _ _ _ => .array
  | object _ _ _ => .object

/-- A loop variable is a plain name: no dot, no bracket, no digit in front. -/
def name? (text : List Char) : Option String :=
  if text.isEmpty ∨ text.any (fun c => c = '.' ∨ c = '[' ∨ c = ']') ∨
      text.head?.any Char.isDigit then none
  else some (String.ofList text)

/-- The two sides of a range: `...` leaves out the end, `..` includes it. -/
def splitRange? (span : List Char) : Option (List Char × List Char × Bool) :=
  match Text.splitOnce? "...".toList span with
  | some (start, stop) => some (start, stop, false)
  | none => (Text.splitOnce? "..".toList span).map fun (start, stop) => (start, stop, true)

def range? (name span : List Char) : Option Loop := do
  let (start, stop, inclusive) ← splitRange? span
  let name ← name? name
  let start ← Bound.parse? start
  let stop ← Bound.parse? stop
  some (.range name start stop inclusive)

/-- A loop over the items of an array, linked by `of`, or the keys of an object, linked by `in`. -/
def collection? (name : List Char) (link : String) (path : List Char)
    (index : Option (List Char)) : Option Loop := do
  let name ← name? name
  let index ← match index with
    | none => some none
    | some index => (name? index).map some
  if link = "of" then some (.array name (String.ofList path) index)
  else if link = "in" then some (.object name (String.ofList path) index)
  else none

def isLead (word : String) : Bool := word == "for" || word == "each"

/-- The loop that a row of words declares. -/
def ofWords? : List String → Option Loop
  | [count, "times", "do"] => do
    let count ← Bound.parse? count.toList
    some (.times count none)
  | [count, "times", "with", name, "do"] => do
    let count ← Bound.parse? count.toList
    let name ← name? name.toList
    some (.times count (some name))
  | [lead, name, link, path] =>
    if !isLead lead then none
    else if (link = "in" ∨ link = "of") ∧ Text.hasPart "..".toList path.toList then
      range? name.toList path.toList
    else collection? name.toList link path.toList none
  | [lead, name, link, path, "with", index] =>
    if !isLead lead then none
    else collection? name.toList link path.toList (some index.toList)
  | _ => none

/-- The loop that a key declares. -/
def parse? (key : String) : Option Loop :=
  ofWords? ((Text.words key.toList).map String.ofList)

end Loop

/-- What a key is. -/
inductive KeyClass where
  | condition (role : ConditionKey)
  | loop (declared : Loop)
  | plain
  deriving DecidableEq

namespace KeyClass

def classify (key : String) : KeyClass :=
  match ConditionKey.parse? key, Loop.parse? key with
  | some role, _ => .condition role
  | none, some declared => .loop declared
  | none, none => .plain

end KeyClass

def isConditionKey (key : String) : Bool := (ConditionKey.parse? key).isSome

def isLoopKey (key : String) : Bool := (Loop.parse? key).isSome

end Docscript

import Docscript.Context
import Docscript.Expression.Parser

/- Evaluation never fails: what cannot be resolved or compared is false. -/

set_option autoImplicit false

namespace Docscript

/-- What an operand stands for. `nil` is written on the right side only and equals both null and
what is undefined. -/
inductive Resolved where
  | undefined
  | nil
  | value (value : Value)

namespace Resolved

/-- Whether `nil` equals it. -/
def isNil : Resolved → Bool
  | undefined => true
  | nil => true
  | value .null => true
  | value _ => false

def equals : Resolved → Resolved → Bool
  | nil, other => other.isNil
  | other, nil => other.isNil
  | undefined, undefined => true
  | value a, value b => a.strictEq b
  | _, _ => false

def toDouble? : Resolved → Option Binary64
  | value v => v.toDouble?
  | _ => none

end Resolved

namespace Operand

/-- On the left side an operand names a variable first; failing that a quoted text is itself and
a numeric word is its number. -/
def resolveLeft (c : Context) : Operand → Resolved
  | quoted text =>
    match c.get? text with
    | some v => .value v
    | none => .value (.string text)
  | word text =>
    match c.get? text with
    | some v => .value v
    | none =>
      match Number.read? text.toList with
      | some n => .value (.number n)
      | none => .undefined

/-- On the right side an operand is a literal first and a variable last. -/
def resolveRight (c : Context) : Operand → Resolved
  | quoted text => .value (.string text)
  | word text =>
    match text with
    | "null" => .value .null
    | "undefined" => .undefined
    | "nil" => .nil
    | "true" => .value (.bool true)
    | "false" => .value (.bool false)
    | text =>
      match Number.read? text.toList with
      | some n => .value (.number n)
      | none =>
        match c.get? text with
        | some v => .value v
        | none => .undefined

/-- A lone operand holds if its variable is truthy, if it is the word `true`, or if it is a quoted
text that is not empty. -/
def truthy (c : Context) : Operand → Bool
  | quoted text => text != ""
  | word text =>
    match c.get? text with
    | some v => v.truthy
    | none => text == "true"

/-- Whether the left side, a literal or variable, is contained in the variable on the right side:
as an item, as a key, or as part of a text. -/
def isIn (c : Context) (needle haystack : Operand) : Bool :=
  match haystack, needle.resolveRight c with
  | word path, .value needle =>
    match c.get? path, needle with
    | some (.array items), needle => items.any (·.strictEq needle)
    | some (.object entries), .string key => Entries.contains entries key
    | some (.object entries), .number n => Entries.contains entries n.text
    | some (.string text), .string part => Text.hasPart part.toList text.toList
    | _, _ => false
  | _, _ => false

end Operand

namespace Comparison

/-- Numeric order; false when a side is no number. -/
def ordered (order : Binary64 → Binary64 → Bool) (left right : Resolved) : Bool :=
  match left.toDouble?, right.toDouble? with
  | some a, some b => order a b
  | _, _ => false

def holds (c : Context) (comparison : Comparison) (left right : Operand) : Bool :=
  match comparison with
  | equal => (left.resolveLeft c).equals (right.resolveRight c)
  | notEqual => !(left.resolveLeft c).equals (right.resolveRight c)
  | less => ordered Binary64.less (left.resolveLeft c) (right.resolveRight c)
  | lessOrEqual => ordered Binary64.atMost (left.resolveLeft c) (right.resolveRight c)
  | greater => ordered (fun a b => b.less a) (left.resolveLeft c) (right.resolveRight c)
  | greaterOrEqual => ordered (fun a b => b.atMost a) (left.resolveLeft c) (right.resolveRight c)
  | isIn => left.isIn c right
  | isNotIn => !left.isIn c right

end Comparison

namespace Expression

mutual

def eval (c : Context) : Expression → Bool
  | any items => evalAny c items
  | all items => evalAll c items
  | negation inner => !eval c inner
  | truthy operand => operand.truthy c
  | compare left comparison right => comparison.holds c left right

def evalAny (c : Context) : List Expression → Bool
  | [] => false
  | item :: rest => eval c item || evalAny c rest

def evalAll (c : Context) : List Expression → Bool
  | [] => true
  | item :: rest => eval c item && evalAll c rest

end

/-- Parses a text and evaluates it. -/
def evaluate (source : String) (c : Context) : Except Error Bool :=
  (parse source).map (eval c)

end Expression

end Docscript

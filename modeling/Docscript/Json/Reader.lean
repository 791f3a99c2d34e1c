import Docscript.Json.NumberText
import Docscript.Value

/- The grammar of arrays and objects is written once, over a reader for the values without parts; it
serves to read a value and to pass over one whose content does not matter. The `budget` of a loop
is the length of the whole text, which no loop can exceed, since each round takes a character. -/

set_option autoImplicit false

namespace Docscript.Json

abbrev Reader (α : Type) := List Char → Option (α × List Char)

variable {α κ : Type}

def isSpace (c : Char) : Bool := c = ' ' || c = '\t' || c = '\n' || c = '\r'

def skipSpace (text : List Char) : List Char := text.dropWhile isSpace

/-- Takes the given word from the front. -/
def literal (word : String) (value : α) : Reader α := fun text =>
  (word.toList.isPrefixOf? text).map fun rest => (value, rest)

def hexValue? (c : Char) : Option Nat :=
  if '0' ≤ c ∧ c ≤ '9' then some (c.toNat - 48)
  else if 'a' ≤ c ∧ c ≤ 'f' then some (c.toNat - 87)
  else if 'A' ≤ c ∧ c ≤ 'F' then some (c.toNat - 55)
  else none

def hexUnit : Reader Nat
  | a :: b :: c :: d :: rest => do
    let a ← hexValue? a
    let b ← hexValue? b
    let c ← hexValue? c
    let d ← hexValue? d
    some (((a * 16 + b) * 16 + c) * 16 + d, rest)
  | _ => none

def isHighSurrogate (unit : Nat) : Bool := 0xD800 ≤ unit && unit < 0xDC00

def isLowSurrogate (unit : Nat) : Bool := 0xDC00 ≤ unit && unit < 0xE000

/-- The character of a Unicode escape, of one code unit or a pair of surrogates. -/
def unicodeEscape : Reader Char := fun text => do
  let (unit, rest) ← hexUnit text
  if isHighSurrogate unit then
    match rest with
    | '\\' :: 'u' :: rest =>
      let (low, rest) ← hexUnit rest
      if isLowSurrogate low then
        some (Char.ofNat (0x10000 + (unit - 0xD800) * 0x400 + (low - 0xDC00)), rest)
      else none
    | _ => none
  else if isLowSurrogate unit then none
  else some (Char.ofNat unit, rest)

/-- The character of a one-letter escape. -/
def shortEscape? : Char → Option Char
  | '"' => some '"'
  | '\\' => some '\\'
  | '/' => some '/'
  | 'b' => some '\x08'
  | 'f' => some '\x0c'
  | 'n' => some '\n'
  | 'r' => some '\r'
  | 't' => some '\t'
  | _ => none

/-- What follows the opening quote of a string, up to and with the closing one. -/
def stringBody : Nat → List Char → Reader String
  | 0, _, _ => none
  | budget + 1, taken, text =>
    match text with
    | [] => none
    | '"' :: rest => some (String.ofList taken.reverse, rest)
    | '\\' :: 'u' :: rest =>
      match unicodeEscape rest with
      | some (c, rest) => stringBody budget (c :: taken) rest
      | none => none
    | '\\' :: mark :: rest =>
      match shortEscape? mark with
      | some c => stringBody budget (c :: taken) rest
      | none => none
    | c :: rest => if c.toNat < 0x20 ∨ c = '\\' then none else stringBody budget (c :: taken) rest

def string (budget : Nat) : Reader String
  | '"' :: rest => stringBody budget [] rest
  | _ => none

/-- Passes over a string whose escapes need not stand for characters. -/
def skipStringBody : Nat → Reader Unit
  | 0, _ => none
  | budget + 1, text =>
    match text with
    | [] => none
    | '"' :: rest => some ((), rest)
    | '\\' :: 'u' :: rest =>
      match hexUnit rest with
      | some (_, rest) => skipStringBody budget rest
      | none => none
    | '\\' :: mark :: rest =>
      if (shortEscape? mark).isSome then skipStringBody budget rest else none
    | c :: rest => if c.toNat < 0x20 ∨ c = '\\' then none else skipStringBody budget rest

def skipString (budget : Nat) : Reader Unit
  | '"' :: rest => skipStringBody budget rest
  | _ => none

/-- At least one digit. -/
def digits : Reader (List Char) := fun text =>
  let run := text.takeWhile Char.isDigit
  if run.isEmpty then none else some (run, text.dropWhile Char.isDigit)

/-- The digits after the point of a number, if there is a point. -/
def fractionText : Reader (List Char)
  | '.' :: rest => digits rest
  | text => some ([], text)

/-- The exponent of a number, if it has one. -/
def exponentText : Reader (Option Int)
  | mark :: rest =>
    if mark = 'e' ∨ mark = 'E' then
      let (negative, rest) := match rest with
        | '-' :: rest => (true, rest)
        | '+' :: rest => (false, rest)
        | rest => (false, rest)
      (digits rest).map fun (run, rest) =>
        let size : Int := Nat.ofDigitChars 10 run 0
        (some (if negative then -size else size), rest)
    else some (none, mark :: rest)
  | [] => some (none, [])

/-- A number, whose digits before the point have no leading zero. -/
def numberText : Reader NumberText := fun text => do
  let (negative, text) := match text with
    | '-' :: rest => (true, rest)
    | rest => (false, rest)
  let (whole, text) ← digits text
  if whole.length > 1 ∧ whole.head? = some '0' then none
  let (fraction, text) ← fractionText text
  let (exponent, text) ← exponentText text
  some (⟨negative, whole, fraction, exponent⟩, text)

def number : Reader Number := fun text => do
  let (parts, rest) ← numberText text
  let value ← parts.value?
  some (value, rest)

/-- Items with commas between them, up to and with the closing bracket. -/
def sequenceTail (closing : Char) (item : Reader α) : Nat → List α → Reader (List α)
  | 0, _, _ => none
  | budget + 1, taken, text =>
    match item (skipSpace text) with
    | none => none
    | some (value, rest) =>
      match skipSpace rest with
      | [] => none
      | c :: rest =>
        if c = ',' then sequenceTail closing item budget (value :: taken) rest
        else if c = closing then some ((value :: taken).reverse, rest)
        else none

def sequence (closing : Char) (item : Reader α) (budget : Nat) : Reader (List α) := fun text =>
  match skipSpace text with
  | [] => none
  | c :: rest =>
    if c = closing then some ([], rest) else sequenceTail closing item budget [] (c :: rest)

/-- A key, a colon and a value, whose reader may depend on the key. -/
def field (key : Reader κ) (value : κ → Reader α) : Reader (κ × α) := fun text => do
  let (name, rest) ← key text
  match skipSpace rest with
  | ':' :: rest =>
    let (content, rest) ← value name (skipSpace rest)
    some ((name, content), rest)
  | _ => none

/-- The grammar of values with at most the given number of brackets around a value without parts.
What arrays and objects stand for is left open. -/
def nested (leaf : Reader α) (key : Reader κ) (ofItems : List α → α)
    (ofEntries : List (κ × α) → α) (budget : Nat) : Nat → Reader α
  | 0, text => leaf text
  | depth + 1, text =>
    let part := nested leaf key ofItems ofEntries budget depth
    match text with
    | '[' :: rest => (sequence ']' part budget rest).map fun (items, rest) => (ofItems items, rest)
    | '{' :: rest =>
      (sequence '}' (field key fun _ => part) budget rest).map
        fun (entries, rest) => (ofEntries entries, rest)
    | text => leaf text

/-- A value without parts. -/
def scalar (budget : Nat) : Reader Value
  | '"' :: rest => (stringBody budget [] rest).map fun (s, rest) => (.string s, rest)
  | 'n' :: rest => literal "ull" .null rest
  | 't' :: rest => literal "rue" (.bool true) rest
  | 'f' :: rest => literal "alse" (.bool false) rest
  | text => (number text).map fun (n, rest) => (.number n, rest)

def skipScalar (budget : Nat) : Reader Unit
  | '"' :: rest => skipStringBody budget rest
  | 'n' :: rest => literal "ull" () rest
  | 't' :: rest => literal "rue" () rest
  | 'f' :: rest => literal "alse" () rest
  | text => (numberText text).map fun (_, rest) => ((), rest)

/-- How deep arrays and objects may be nested. -/
def maxDepth : Nat := 127

/-- A value; of entries with the same key the last value counts, at the place of the first. -/
def value (budget : Nat) : Reader Value :=
  nested (scalar budget) (string budget) .array
    (fun entries => .object (Entries.insertAll [] entries)) budget maxDepth

/-- Passes over a value of any depth. -/
def skipValue (budget : Nat) : Reader Unit :=
  nested (skipScalar budget) (skipString budget) (fun _ => ()) (fun _ => ()) budget budget

/-- Applies a reader to a whole text, spaces around it aside. -/
def readWhole? (reader : Nat → Reader α) (text : String) : Option α :=
  let chars := text.toList
  match reader (chars.length + 1) (skipSpace chars) with
  | some (result, rest) => if (skipSpace rest).isEmpty then some result else none
  | none => none

/-- The value that a text stands for. -/
def read? (text : String) : Option Value := readWhole? value text

end Docscript.Json

import Docscript.Text.Blank
import Docscript.Text.LetterCase

set_option autoImplicit false

namespace Docscript

namespace OperationName

def isSeparator (c : Char) : Bool := c == '-' || c == '_' || Text.isBlank c

/-- Adds an underscore to the characters so far, the last one first, unless there is none yet or
the last one is an underscore. -/
def separate (done : List Char) : List Char :=
  match done with
  | [] => []
  | last :: _ => if last = '_' then done else '_' :: done

/-- Whether an upper-case character begins a word: after a lower-case one or a digit, and after an
upper-case one if a lower-case one follows. -/
def beginsWord (previous next : Option Char) : Bool :=
  match previous with
  | none => false
  | some p =>
    if Text.isLowercase p || p.isDigit then true
    else if Text.isUppercase p then next.any Text.isLowercase
    else false

/-- The characters of a part of a name in the one style, the last one first, after those that are
`done`. -/
def foldOnto (previous : Option Char) (done : List Char) : List Char → List Char
  | [] => done
  | c :: rest =>
    if isSeparator c then foldOnto (some c) (separate done) rest
    else if Text.isUppercase c then
      let before := if beginsWord previous rest.head? then separate done else done
      foldOnto (some c) ((Text.lowercase c).reverse ++ before) rest
    else foldOnto (some c) (c :: done) rest

/-- One part of a name in the one style, without an underscore at its end. -/
def foldPart (part : List Char) : List Char :=
  ((foldOnto none [] part).dropWhile (· == '_')).reverse

/-- A name in the one style. -/
def canonicalChars (name : List Char) : List Char :=
  ['.'].intercalate (((Text.trim name).splitOn '.').map foldPart)

def canonical (name : String) : String := String.ofList (canonicalChars name.toList)

end OperationName

end Docscript

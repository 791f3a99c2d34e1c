import Docscript.Text.CharRange

/- Texts are lists of characters here; `String` is kept for stored data. -/

set_option autoImplicit false

namespace Docscript.Text

def blankRanges : List CharRange :=
  [⟨0x09, 0x0D, 1⟩, ⟨0x20, 0x20, 1⟩, ⟨0x85, 0x85, 1⟩, ⟨0xA0, 0xA0, 1⟩, ⟨0x1680, 0x1680, 1⟩,
   ⟨0x2000, 0x200A, 1⟩, ⟨0x2028, 0x2029, 1⟩, ⟨0x202F, 0x202F, 1⟩, ⟨0x205F, 0x205F, 1⟩,
   ⟨0x3000, 0x3000, 1⟩]

def isBlank (c : Char) : Bool := inRanges blankRanges c

def trimStart (text : List Char) : List Char := text.dropWhile isBlank

def trimEnd (text : List Char) : List Char := (text.reverse.dropWhile isBlank).reverse

/-- The text without the blanks at its two ends. -/
def trim (text : List Char) : List Char := trimEnd (trimStart text)

/-- The longest runs of characters that are not blank. -/
def words (text : List Char) : List (List Char) :=
  (text.splitOnP isBlank).filter (!·.isEmpty)

/-- The parts between the dots of a text, empty ones left out. -/
def dottedParts (text : List Char) : List (List Char) :=
  (text.splitOn '.').filter (!·.isEmpty)

/-- What follows `lead` in a text that starts with it. -/
def dropLead? (lead : String) (text : List Char) : Option (List Char) :=
  lead.toList.isPrefixOf? text

/-- Whether a text occurs within another one. -/
def hasPart (part : List Char) : List Char → Bool
  | [] => part.isEmpty
  | c :: rest => part.isPrefixOf (c :: rest) || hasPart part rest

/-- The texts before and after the first occurrence of a separator. -/
def splitOnce? (separator : List Char) : List Char → Option (List Char × List Char)
  | [] => (separator.isPrefixOf? []).map ([], ·)
  | c :: rest =>
    match separator.isPrefixOf? (c :: rest) with
    | some after => some ([], after)
    | none => (splitOnce? separator rest).map fun (before, after) => (c :: before, after)

end Docscript.Text

import Docscript.Value

set_option autoImplicit false

namespace Docscript

namespace Json

def hexDigit (n : Nat) : Char := if n < 10 then Char.ofNat (48 + n) else Char.ofNat (87 + n)

/-- A quote, a backslash and the control characters are escaped, all else stands for itself. -/
def escapeChar (c : Char) : List Char :=
  match c with
  | '"' => ['\\', '"']
  | '\\' => ['\\', '\\']
  | '\n' => ['\\', 'n']
  | '\r' => ['\\', 'r']
  | '\t' => ['\\', 't']
  | '\x08' => ['\\', 'b']
  | '\x0c' => ['\\', 'f']
  | c =>
    if c.toNat < 0x20 then
      ['\\', 'u', '0', '0', hexDigit (c.toNat / 16), hexDigit (c.toNat % 16)]
    else [c]

def quote (text : String) : String :=
  String.ofList ('"' :: text.toList.flatMap escapeChar ++ ['"'])

/-- The parts with commas between them, within two brackets. -/
def enclose (opening closing : Char) (parts : List String) : String :=
  opening.toString ++ ",".intercalate parts ++ closing.toString

mutual

/-- The text of a value without any space. -/
def compact : Value → String
  | .null => "null"
  | .bool b => if b then "true" else "false"
  | .number n => n.text
  | .string s => quote s
  | .array items => enclose '[' ']' (compactItems items)
  | .object entries => enclose '{' '}' (compactEntries entries)

def compactItems : List Value → List String
  | [] => []
  | item :: rest => compact item :: compactItems rest

def compactEntries : List (String × Value) → List String
  | [] => []
  | (key, value) :: rest => (quote key ++ ":" ++ compact value) :: compactEntries rest

end

/-- The parts on lines of their own, two spaces further in than the brackets around them. -/
def encloseLines (opening closing : Char) (indent : Nat) (parts : List String) : String :=
  let newline := "\n" ++ String.ofList (List.replicate indent ' ')
  if parts.isEmpty then opening.toString ++ closing.toString
  else opening.toString ++ newline ++ "  " ++ (("," ++ newline ++ "  ").intercalate parts) ++
    newline ++ closing.toString

mutual

/-- The text of a value on several lines, for a value that starts `indent` columns in. -/
def pretty (indent : Nat) : Value → String
  | .array items => encloseLines '[' ']' indent (prettyItems (indent + 2) items)
  | .object entries => encloseLines '{' '}' indent (prettyEntries (indent + 2) entries)
  | .null => compact .null
  | .bool b => compact (.bool b)
  | .number n => compact (.number n)
  | .string s => compact (.string s)

def prettyItems (indent : Nat) : List Value → List String
  | [] => []
  | item :: rest => pretty indent item :: prettyItems indent rest

def prettyEntries (indent : Nat) : List (String × Value) → List String
  | [] => []
  | (key, value) :: rest =>
    (quote key ++ ": " ++ pretty indent value) :: prettyEntries indent rest

end

end Json

/-- The text of a value inside a larger text. -/
def Value.display : Value → String
  | .null => ""
  | .string s => s
  | .number n => n.display
  | .bool b => Json.compact (.bool b)
  | .array items => Json.compact (.array items)
  | .object entries => Json.compact (.object entries)

end Docscript

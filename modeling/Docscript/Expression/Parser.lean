import Docscript.Error

/- From the loosest binding to the tightest: `or`, `and`, `not`, one comparison. Parentheses group.

Each parser takes tokens from the front and returns the rest. The bounds on rounds and on the depth
of parentheses are token counts, which neither can exceed. -/

set_option autoImplicit false

namespace Docscript

namespace Expression

abbrev Parser (α : Type) := List Token → Except ExpressionFault (α × List Token)

def operand : Parser Operand
  | .word text :: rest => .ok (.word text, rest)
  | .quoted text :: rest => .ok (.quoted text, rest)
  | found :: _ => .error (.missingOperand (some found))
  | [] => .error (.missingOperand none)

/-- The comparison at the front of the tokens, if there is one, and the tokens after it. -/
def comparison? : List Token → Option (Comparison × List Token)
  | .isWord :: .notWord :: rest => some (.notEqual, rest)
  | .isWord :: rest => some (.equal, rest)
  | .inWord :: rest => some (.isIn, rest)
  | .notWord :: .inWord :: rest => some (.isNotIn, rest)
  | .comparison comparison :: rest => some (comparison, rest)
  | _ => none

/-- One operand, or two with a comparison between them. -/
def comparison : Parser Expression := fun tokens =>
  match operand tokens with
  | .error fault => .error fault
  | .ok (left, rest) =>
    match comparison? rest with
    | none => .ok (.truthy left, rest)
    | some (comparison, rest) =>
      match operand rest with
      | .error fault => .error fault
      | .ok (right, rest) => .ok (.compare left comparison right, rest)

/-- One or more items with a separator between them. -/
def chain (separator : Token) (item : Parser Expression) : Nat → Parser (List Expression)
  | 0, tokens =>
    match item tokens with
    | .error fault => .error fault
    | .ok (first, rest) => .ok ([first], rest)
  | rounds + 1, tokens =>
    match item tokens with
    | .error fault => .error fault
    | .ok (first, []) => .ok ([first], [])
    | .ok (first, next :: rest) =>
      if next = separator then
        match chain separator item rounds rest with
        | .error fault => .error fault
        | .ok (others, rest) => .ok (first :: others, rest)
      else .ok ([first], next :: rest)

/-- One item stands for itself. -/
def collapse (wrap : List Expression → Expression) : List Expression → Expression
  | [item] => item
  | items => wrap items

/-- A chain as one expression. -/
def joined (wrap : List Expression → Expression) (separator : Token) (item : Parser Expression) :
    Parser Expression := fun tokens =>
  match chain separator item tokens.length tokens with
  | .error fault => .error fault
  | .ok (items, rest) => .ok (collapse wrap items, rest)

def negations (primary : Parser Expression) : Parser Expression
  | .notWord :: rest =>
    match negations primary rest with
    | .error fault => .error fault
    | .ok (inner, rest) => .ok (.negation inner, rest)
  | tokens => primary tokens

def conjunction (primary : Parser Expression) : Parser Expression :=
  joined .all .andWord (negations primary)

def disjunction (primary : Parser Expression) : Parser Expression :=
  joined .any .orWord (conjunction primary)

/-- A comparison or an expression in parentheses, at most `depth` of them inside each other. -/
def primary : Nat → Parser Expression
  | depth + 1, .leftParen :: tokens =>
    match disjunction (primary depth) tokens with
    | .error fault => .error fault
    | .ok (inner, .rightParen :: rest) => .ok (inner, rest)
    | .ok (_, _) => .error .unclosedParenthesis
  | _, tokens => comparison tokens

/-- The expression that all the tokens form. -/
def ofTokens (tokens : List Token) : Except ExpressionFault Expression :=
  if tokens.isEmpty then .error .empty
  else match disjunction (primary tokens.length) tokens with
    | .error fault => .error fault
    | .ok (expression, []) => .ok expression
    | .ok (_, extra :: _) => .error (.unexpected extra)

/-- A condition without its leading `if`. -/
def withoutIf (source : List Char) : List Char :=
  let trimmed := Text.trim source
  if trimmed = "if".toList then []
  else match Text.dropLead? "if " trimmed with
    | some rest => Text.trimStart rest
    | none => trimmed

/-- Whether a text is `if` and something after it. -/
def isCondition (source : String) : Bool :=
  match Text.dropLead? "if " (Text.trimStart source.toList) with
  | some rest => !(Text.trim rest).isEmpty
  | none => false

/-- The expression that a text stands for, with or without a leading `if`. -/
def parse (source : String) : Except Error Expression :=
  match Token.scan (withoutIf source.toList) with
  | .error fault => .error (.expression source fault)
  | .ok tokens =>
    match ofTokens tokens with
    | .error fault => .error (.expression source fault)
    | .ok expression => .ok expression

end Expression

end Docscript

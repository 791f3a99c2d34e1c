import Docscript.Expression
import Docscript.Text.Blank

set_option autoImplicit false

namespace Docscript

inductive Token where
  | leftParen
  | rightParen
  | orWord
  | andWord
  | notWord
  | isWord
  | inWord
  | comparison (comparison : Comparison)
  | quoted (text : String)
  | word (text : String)
  deriving DecidableEq

namespace Token

def comparisonName : Comparison → String
  | .equal => "Eq"
  | .notEqual => "Ne"
  | .greater => "Gt"
  | .greaterOrEqual => "Ge"
  | .less => "Lt"
  | .lessOrEqual => "Le"
  | .isIn => "In"
  | .isNotIn => "NotIn"

/-- How messages name a token. -/
def describe : Token → String
  | .leftParen => "'('"
  | .rightParen => "')'"
  | .orWord => "'or'"
  | .andWord => "'and'"
  | .notWord => "'not'"
  | .isWord => "'is'"
  | .inWord => "'in'"
  | .comparison c => "operator " ++ comparisonName c
  | .quoted text => "string '" ++ text ++ "'"
  | .word text => "'" ++ text ++ "'"

/-- The token of a bare word: a reserved word or an operand. -/
def ofWord (text : String) : Token :=
  match text with
  | "or" => .orWord
  | "||" => .orWord
  | "and" => .andWord
  | "&&" => .andWord
  | "not" => .notWord
  | "is" => .isWord
  | "in" => .inWord
  | "==" => .comparison .equal
  | "!=" => .comparison .notEqual
  | ">" => .comparison .greater
  | ">=" => .comparison .greaterOrEqual
  | "<" => .comparison .less
  | "<=" => .comparison .lessOrEqual
  | _ => .word text

end Token

/-- Why a text is no expression. -/
inductive ExpressionFault where
  | unterminatedText
  | empty
  | unexpected (token : Token)
  | unclosedParenthesis
  | missingOperand (found : Option Token)
  deriving DecidableEq

namespace ExpressionFault

def message : ExpressionFault → String
  | unterminatedText => "unterminated string literal"
  | empty => "empty expression"
  | unexpected token => "unexpected " ++ token.describe
  | unclosedParenthesis => "missing closing parenthesis"
  | missingOperand (some token) => "expected operand, found " ++ token.describe
  | missingOperand none => "expected operand, found end of expression"

end ExpressionFault

namespace Token

mutual

/-- The tokens of a text that begins between two tokens. -/
def scan : List Char → Except ExpressionFault (List Token)
  | [] => .ok []
  | c :: rest =>
    if Text.isBlank c then scan rest
    else if c = '(' then (.leftParen :: ·) <$> scan rest
    else if c = ')' then (.rightParen :: ·) <$> scan rest
    else if c = '\'' ∨ c = '"' then scanQuoted c [] rest
    else scanWord [c] rest

/-- The tokens of a text that begins within a bare word, whose characters so far are `pending`, the
last one first. -/
def scanWord (pending : List Char) : List Char → Except ExpressionFault (List Token)
  | [] => .ok [ofWord (String.ofList pending.reverse)]
  | c :: rest =>
    if Text.isBlank c then (ofWord (String.ofList pending.reverse) :: ·) <$> scan rest
    else if c = '(' then
      (fun tokens => ofWord (String.ofList pending.reverse) :: .leftParen :: tokens) <$> scan rest
    else if c = ')' then
      (fun tokens => ofWord (String.ofList pending.reverse) :: .rightParen :: tokens) <$> scan rest
    else scanWord (c :: pending) rest

/-- The tokens of a text that begins within a quoted text. A backslash takes the character after it
as it is. -/
def scanQuoted (quote : Char) (pending : List Char) :
    List Char → Except ExpressionFault (List Token)
  | [] => .error .unterminatedText
  | '\\' :: c :: rest => scanQuoted quote (c :: pending) rest
  | c :: rest =>
    if c = quote then (.quoted (String.ofList pending.reverse) :: ·) <$> scan rest
    else scanQuoted quote (c :: pending) rest

end

end Token

end Docscript

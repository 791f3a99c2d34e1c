set_option autoImplicit false

namespace Docscript

inductive Comparison where
  | equal
  | notEqual
  | greater
  | greaterOrEqual
  | less
  | lessOrEqual
  | isIn
  | isNotIn
  deriving DecidableEq

/-- A bare word, which is a path, a number or a literal depending on its side, or a quoted text. -/
inductive Operand where
  | word (text : String)
  | quoted (text : String)
  deriving DecidableEq

inductive Expression where
  | any (items : List Expression)
  | all (items : List Expression)
  | negation (inner : Expression)
  | truthy (operand : Operand)
  | compare (left : Operand) (comparison : Comparison) (right : Operand)

end Docscript

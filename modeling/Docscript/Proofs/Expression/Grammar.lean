import Docscript.Expression.Parser

/- From the loosest binding to the tightest:

    disjunction ::= conjunction (or conjunction)*
    conjunction ::= negation (and negation)*
    negation    ::= not negation | primary
    primary     ::= ( disjunction ) | comparison
    comparison  ::= operand | operand operator operand

A chain of one item stands for the item. -/

set_option autoImplicit false

namespace Docscript

namespace Expression

namespace Grammar

/-- A kind of phrase: the rows of tokens that form one, each with the expression it stands for. -/
abbrev Phrase := List Token → Expression → Prop

/-- A token that is an operand. -/
inductive OperandToken : Token → Operand → Prop
  | word (text : String) : OperandToken (.word text) (.word text)
  | quoted (text : String) : OperandToken (.quoted text) (.quoted text)

/-- The tokens that stand for a comparison. -/
inductive Operator : List Token → Comparison → Prop
  | symbol (comparison : Comparison) : Operator [.comparison comparison] comparison
  | equal : Operator [.isWord] .equal
  | notEqual : Operator [.isWord, .notWord] .notEqual
  | isIn : Operator [.inWord] .isIn
  | isNotIn : Operator [.notWord, .inWord] .isNotIn

inductive Compared : Phrase
  | lone {token : Token} {operand : Operand} (reads : OperandToken token operand) :
      Compared [token] (.truthy operand)
  | pair {first last : Token} {left right : Operand} {operator : List Token}
      {comparison : Comparison} (leftReads : OperandToken first left)
      (compares : Operator operator comparison) (rightReads : OperandToken last right) :
      Compared (first :: (operator ++ [last])) (.compare left comparison right)

inductive Negated (Inner : Phrase) : Phrase
  | plain {tokens : List Token} {inner : Expression} (derived : Inner tokens inner) :
      Negated Inner tokens inner
  | negation {tokens : List Token} {inner : Expression} (derived : Negated Inner tokens inner) :
      Negated Inner (.notWord :: tokens) (.negation inner)

/-- One or more phrases with a separator between them. -/
inductive Chain (separator : Token) (Item : Phrase) : List Token → List Expression → Prop
  | last {tokens : List Token} {item : Expression} (derived : Item tokens item) :
      Chain separator Item tokens [item]
  | more {tokens rest : List Token} {item : Expression} {items : List Expression}
      (derived : Item tokens item) (others : Chain separator Item rest items) :
      Chain separator Item (tokens ++ separator :: rest) (item :: items)

/-- A chain as one phrase. -/
inductive Joined (wrap : List Expression → Expression) (separator : Token) (Item : Phrase) : Phrase
  | alone {tokens : List Token} {item : Expression} (derived : Item tokens item) :
      Joined wrap separator Item tokens item
  | several {tokens : List Token} {first second : Expression} {others : List Expression}
      (chained : Chain separator Item tokens (first :: second :: others)) :
      Joined wrap separator Item tokens (wrap (first :: second :: others))

inductive Primary : Phrase
  | compared {tokens : List Token} {expression : Expression}
      (derived : Compared tokens expression) : Primary tokens expression
  | group {tokens : List Token} {inner : Expression}
      (derived : Joined .any .orWord (Joined .all .andWord (Negated Primary)) tokens inner) :
      Primary (.leftParen :: (tokens ++ [.rightParen])) inner

abbrev Conjunction (Inner : Phrase) : Phrase := Joined .all .andWord (Negated Inner)

abbrev Disjunction (Inner : Phrase) : Phrase := Joined .any .orWord (Conjunction Inner)

end Grammar

/-- The tokens form a condition, which stands for the expression. -/
def Derives (tokens : List Token) (expression : Expression) : Prop :=
  Grammar.Disjunction Grammar.Primary tokens expression

variable {tokens : List Token} {expression : Expression}

theorem derives_of_primary (derived : Grammar.Primary tokens expression) :
    Derives tokens expression :=
  .alone (.alone (.plain derived))

theorem derives_not (derived : Grammar.Primary tokens expression) :
    Derives (.notWord :: tokens) (.negation expression) :=
  .alone (.alone (.negation (.plain derived)))

end Expression

end Docscript

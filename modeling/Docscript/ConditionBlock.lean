import Docscript.Expression.Evaluation
import Docscript.Key

/- What the branches contain is left open: a branch of a document and a branch of a schema are
selected in the same way. -/

set_option autoImplicit false

namespace Docscript

/-- A branch without a test is always taken. -/
structure Branch (β : Type) where
  test : Option Expression
  body : β

structure ConditionBlock (β : Type) where
  branches : List (Branch β)

namespace ConditionBlock

variable {β : Type}

/-- How far a block has got: before its `if`, after it, or after its `else`. -/
inductive Stage where
  | start
  | opened
  | closed
  deriving DecidableEq

/-- The branches of a row of keyed bodies. The shape is checked key by key, and the expression of a
key as soon as the key is in place. -/
def branches? (stage : Stage) : List (String × β) → Except Error (List (Branch β))
  | [] => if stage = .start then .error (.conditionBlock .noIf) else .ok []
  | (key, body) :: rest =>
    match ConditionKey.parse? key, stage with
    | none, _ => .error (.conditionBlock (.notCondition key))
    | some _, .closed => .error (.conditionBlock (.afterElse key))
    | some (.ifTrue expression), .start => do
      let test ← Expression.parse expression
      let others ← branches? .opened rest
      .ok (⟨some test, body⟩ :: others)
    | some (.ifTrue _), .opened => .error (.conditionBlock .secondIf)
    | some (.elseIf _), .start => .error (.conditionBlock (.elseIfBeforeIf key))
    | some (.elseIf expression), .opened => do
      let test ← Expression.parse expression
      let others ← branches? .opened rest
      .ok (⟨some test, body⟩ :: others)
    | some .otherwise, .start => .error (.conditionBlock .elseBeforeIf)
    | some .otherwise, .opened => do
      let others ← branches? .closed rest
      .ok (⟨none, body⟩ :: others)

def ofEntries (entries : List (String × β)) : Except Error (ConditionBlock β) :=
  (branches? .start entries).map ConditionBlock.mk

def passes (c : Context) (branch : Branch β) : Bool :=
  match branch.test with
  | some test => test.eval c
  | none => true

/-- The body of the first branch that passes. -/
def select (block : ConditionBlock β) (c : Context) : Option β :=
  (block.branches.find? (passes c)).map (·.body)

end ConditionBlock

end Docscript

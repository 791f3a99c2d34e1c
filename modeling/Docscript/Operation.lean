import Docscript.Context
import Docscript.Event
import Docscript.Json.Writer

set_option autoImplicit false

namespace Docscript

/-- How an operation ends without a result: by a quiet request to stop everything, or by failing. -/
inductive Failure where
  | abort
  | failed (message : String) (data : Value)

namespace Failure

def message : Failure → String
  | abort => "pipeline aborted"
  | failed message _ => message

/-- What a handler of failures receives as the result before it. -/
def payload : Failure → Value
  | abort => .null
  | failed message data => .object [("message", .string message), ("data", data)]

end Failure

structure Reply where
  result : Except Failure Value
  context : Context
  events : List Event := []

/-- An operation is a function of its arguments, the context and the result before it. A run uses
each reply only where the call is made, so that what is said of all runs does not depend on whether
an operation would reply the same again. -/
abbrev Operation := (args : Value) → (c : Context) → (previous : Value) → Reply

namespace Operation

/-- Writes each entry of its arguments to the path that the key names. -/
def setVariables : Operation := fun args c previous =>
  match args with
  | .object entries =>
    { result := .ok previous,
      context := entries.foldl (fun done entry => done.setPath entry.1 entry.2) c }
  | _ =>
    { result := .error (.failed "context.set expects an object of values" .null), context := c }

/-- Takes out the variables that the keys of its arguments name. -/
def removeVariables : Operation := fun args c previous =>
  match args with
  | .object entries =>
    { result := .ok previous, context := entries.foldl (fun done entry => done.erase entry.1) c }
  | _ =>
    { result := .error
        (.failed "context.remove expects an object keyed by entry name" .null), context := c }

/-- Stops the pipeline. -/
def abort : Operation := fun _ c _ => { result := .error .abort, context := c }

/-- Reports the text of its arguments. -/
def log : Operation := fun args c previous =>
  { result := .ok previous, context := c, events := [.logged args.display] }

/-- The operations that come with the library, by name. -/
def builtins : List (String × Operation) :=
  [("context.set", setVariables), ("context.remove", removeVariables), ("flow.abort", abort),
   ("flow.log", log)]

end Operation

end Docscript

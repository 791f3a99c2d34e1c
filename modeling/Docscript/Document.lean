import Docscript.ConditionBlock
import Docscript.Loop.Scopes
import Docscript.Template

/- The meaning of a node is what it renders to in any context. An object is given its meaning from
the meanings of its entries, so that a branch is rendered only if it is selected and a loop body
once for each scope. -/

set_option autoImplicit false

namespace Docscript

/-- What a node renders to: one value, the rounds of a loop, which an array around it takes in one
by one, or nothing. -/
inductive Rendered where
  | value (value : Value)
  | spread (items : List Value)
  | nothing

namespace Rendered

/-- The rendered node as one value. -/
def toValue? : Rendered → Option Value
  | value v => some v
  | spread items => some (.array items)
  | nothing => none

/-- The rendered node as items of an array. -/
def toItems : Rendered → List Value
  | value v => [v]
  | spread items => items
  | nothing => []

end Rendered

abbrev Meaning := Context → Except Error Rendered

namespace Document

/-- The rounds of a loop, without those that render to nothing. -/
def expand (declared : Loop) (body : Meaning) : Meaning := fun c =>
  match declared.bind c with
  | .error error => .error error
  | .ok scopes => (scopes.collect fun scope => (body scope).map Rendered.toValue?).map .spread

/-- The selected branch of a block, or nothing. -/
def choose (block : ConditionBlock Meaning) : Meaning := fun c =>
  match block.select c with
  | some branch => branch c
  | none => .ok .nothing

/-- Entries with those of the branch that a run of condition keys selects. -/
def mergeRun (c : Context) (done : Entries Value) (run : List (String × Meaning)) :
    Except Error (Entries Value) :=
  if run.isEmpty then .ok done
  else
    match ConditionBlock.ofEntries run with
    | .error error => .error error
    | .ok block =>
      match choose block c with
      | .error error => .error error
      | .ok (.value (.object entries)) => .ok (done.insertAll entries)
      | .ok .nothing => .ok done
      | .ok _ => .error .branchPlacement

/-- The entries of an object that has plain keys. Condition keys are gathered in `run` until a plain
key or the end of the object. -/
def mixed (options : CompileOptions) (c : Context) (done : Entries Value)
    (run : List (String × Meaning)) : List (String × Meaning) → Except Error (Entries Value)
  | [] => mergeRun c done run
  | (key, body) :: rest =>
    match KeyClass.classify key with
    | .condition _ => mixed options c done (run ++ [(key, body)]) rest
    | .loop _ => .error (.loopPlacement key)
    | .plain =>
      match mergeRun c done run with
      | .error error => .error error
      | .ok done =>
        match body c with
        | .error error => .error error
        | .ok rendered =>
          match rendered.toValue? with
          | some value =>
            mixed options c (done.insert (Template.compileKey options c key) value) [] rest
          | none => mixed options c done [] rest

/-- The loop that is all an object consists of. -/
def soleLoop? (entries : List (String × Meaning)) : Option (Loop × Meaning) :=
  match entries with
  | [(key, body)] =>
    match KeyClass.classify key with
    | .loop declared => some (declared, body)
    | _ => none
  | _ => none

/-- Whether an object consists of condition keys alone. -/
def isBlock (entries : List (String × Meaning)) : Bool :=
  !entries.isEmpty && entries.all (isConditionKey ·.1)

/-- The meaning of an object from the meanings of its entries. -/
def objectMeaning (options : CompileOptions) (entries : List (String × Meaning)) : Meaning :=
  fun c =>
    match soleLoop? entries with
    | some (declared, body) => expand declared body c
    | none =>
      if isBlock entries then
        match ConditionBlock.ofEntries entries with
        | .error error => .error error
        | .ok block => choose block c
      else (mixed options c [] [] entries).map fun done => .value (.object done)

/-- The meaning of an array from the meanings of its items. -/
def arrayItems (c : Context) : List Meaning → Except Error (List Value)
  | [] => .ok []
  | item :: rest =>
    match item c with
    | .error error => .error error
    | .ok rendered =>
      match arrayItems c rest with
      | .error error => .error error
      | .ok values => .ok (rendered.toItems ++ values)

mutual

def meaning (options : CompileOptions) : Value → Meaning
  | .object entries => objectMeaning options (entryMeanings options entries)
  | .array items => fun c =>
    (arrayItems c (itemMeanings options items)).map fun values => .value (.array values)
  | .null => fun _ => .ok (.value .null)
  | .bool b => fun _ => .ok (.value (.bool b))
  | .number n => fun _ => .ok (.value (.number n))
  | .string text => fun c => .ok (.value (Template.compileText options c text))

def itemMeanings (options : CompileOptions) : List Value → List Meaning
  | [] => []
  | item :: rest => meaning options item :: itemMeanings options rest

def entryMeanings (options : CompileOptions) : List (String × Value) → List (String × Meaning)
  | [] => []
  | (key, value) :: rest => (key, meaning options value) :: entryMeanings options rest

end

/-- The value of a document in a context, null if it renders to nothing. -/
def render (options : CompileOptions) (c : Context) (document : Value) : Except Error Value :=
  (meaning options document c).map fun rendered => rendered.toValue?.getD .null

end Document

end Docscript

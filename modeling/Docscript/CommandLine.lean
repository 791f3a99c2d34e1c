import Docscript.CommandLine.Arguments
import Docscript.Engine

/- Files are reached through a function from a path to what reading it yields. -/

set_option autoImplicit false

namespace Docscript.CommandLine

abbrev FileAccess := String → Except ReadFault String

/-- Why a command has no result. -/
inductive Problem where
  | engine (error : Error)
  | argumentText
  | fileText (path : String)
  | contextType

namespace Problem

def message : Problem → String
  | engine error => error.code ++ ": " ++ error.message
  | argumentText => "invalid JSON argument"
  | fileText path => "invalid JSON in " ++ path
  | contextType => "--context must be a JSON object"

end Problem

/-- The configuration file of a directory. -/
def defaultConfigFile : String := "stencil.json"

def fromEngine {α : Type} : Except Error α → Except Problem α
  | .ok value => .ok value
  | .error error => .error (.engine error)

/-- The configuration in the named file, else in the configuration file of the directory if there
is one, else the default. -/
def loadConfig (files : FileAccess) (path : Option String) : Except Problem Config :=
  match path with
  | some path =>
    match files path with
    | .ok text => fromEngine (Config.parse text)
    | .error fault => .error (.engine (.configUnreadable path fault))
  | none =>
    match files defaultConfigFile with
    | .ok text => fromEngine (Config.parse text)
    | .error _ => .ok {}

/-- The value in the file that an argument names, else the value that the argument is. -/
def loadValue (files : FileAccess) (argument : String) : Except Problem Value :=
  match files argument with
  | .ok text =>
    match Json.read? text with
    | some value => .ok value
    | none => .error (.fileText argument)
  | .error _ =>
    match Json.read? argument with
    | some value => .ok value
    | none => .error .argumentText

def loadContext (files : FileAccess) (argument : Option String) : Except Problem Context :=
  match argument with
  | none => .ok Context.empty
  | some argument => do
    match ← loadValue files argument with
    | .object entries => .ok ⟨entries⟩
    | _ => .error .contextType

/-- The value that a command prints. -/
def execute (files : FileAccess) (invocation : Invocation) : Except Problem Value := do
  let config ← loadConfig files invocation.config
  let engine := Engine.ofConfig config
  match invocation.command with
  | .render =>
    let document ← loadValue files invocation.operand
    let c ← loadContext files invocation.context
    fromEngine (engine.render c document)
  | .check =>
    let c ← loadContext files invocation.context
    fromEngine ((engine.evaluate c invocation.operand).map .bool)
  | .run =>
    let schema ← loadValue files invocation.operand
    let c ← loadContext files invocation.context
    let previous ← match invocation.previous with
      | some argument => loadValue files argument
      | none => .ok .null
    let run := engine.handle schema previous c
    let result ← fromEngine run.result
    .ok (.object [("aborted", .bool result.isNone), ("result", result.getD .null),
      ("context", run.context.toValue)])

end Docscript.CommandLine

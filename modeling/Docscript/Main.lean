import Docscript.CommandLine

set_option autoImplicit false

namespace Docscript.CommandLine

def readFile (path : String) : IO (Except ReadFault String) := do
  try
    let text ← IO.FS.readFile path
    return .ok text
  catch error =>
    match error with
    | .inappropriateType _ number _ =>
      return .error (if number = 21 ∨ number = -21 then .directory else .insideFile)
    | .invalidArgument _ _ _ =>
      return .error (if path.toList.contains '\x00' then .zeroCharacter else .nameTooLong)
    | _ => return .error .missing

/-- The files that an invocation may name, with their contents. -/
def readFiles (paths : List String) : IO (List (String × Except ReadFault String)) :=
  paths.mapM fun path => do return (path, ← readFile path)

def usageText : String :=
  "Usage: stencil [--config FILE] <render DOC | check EXPR | run SCHEMA> [-c|--context VALUE] " ++
    "[--previous VALUE]"

def program (arguments : List String) : IO UInt32 := do
  match parse arguments with
  | .error .help => IO.println usageText; return 0
  | .error .version => IO.println "stencil 0.1.0"; return 0
  | .error .usage => IO.eprintln usageText; return 2
  | .ok invocation =>
    let named := [invocation.config, invocation.context, invocation.previous].filterMap id
    let contents ← readFiles (defaultConfigFile :: invocation.operand :: named)
    let files : FileAccess := fun path => (contents.lookup path).getD (.error .missing)
    match execute files invocation with
    | .ok value => IO.println (Json.pretty 0 value); return 0
    | .error problem => IO.eprintln problem.message; return 1

end Docscript.CommandLine

def main (arguments : List String) : IO UInt32 := Docscript.CommandLine.program arguments

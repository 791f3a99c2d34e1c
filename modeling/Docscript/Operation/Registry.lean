import Docscript.Error
import Docscript.Operation
import Docscript.Operation.Name
import Docscript.Text.Listed

/- A name belongs to the source that registers it first; the same source may repeat a registration
without effect, another source is refused. -/

set_option autoImplicit false

namespace Docscript

structure Registration where
  source : String
  operation : Operation

structure Registry where
  entries : Entries Registration

/-- A set of operations that is installed under one name. -/
structure Plugin where
  name : String
  operations : List (String × Operation)

namespace Registry

def empty : Registry := ⟨[]⟩

/-- The source of what the surrounding program registers. -/
def hostSource : String := "host"

/-- The source of the operations that come with the library. -/
def builtinSource : String := "stencil"

/-- The registry with the operations that come with the library. -/
def withBuiltins : Registry :=
  ⟨Entries.insertAll [] (Operation.builtins.map fun (name, operation) =>
    (OperationName.canonical name, ⟨builtinSource, operation⟩))⟩

def get? (registry : Registry) (name : String) : Option Operation :=
  (registry.entries.get? (OperationName.canonical name)).map (·.operation)

def contains (registry : Registry) (name : String) : Bool :=
  registry.entries.contains (OperationName.canonical name)

/-- The source that registered a name. -/
def sourceOf? (registry : Registry) (name : String) : Option String :=
  (registry.entries.get? (OperationName.canonical name)).map (·.source)

def size (registry : Registry) : Nat := registry.entries.length

/-- The registered names, in order of their code points. -/
def names (registry : Registry) : List String :=
  registry.entries.keys.mergeSort fun a b => decide (a ≤ b)

def summary (registry : Registry) : String :=
  "OperationRegistry \x7b names: " ++ Text.listedAll registry.names ++ " \x7d"

/-- The end of a registration: whether the name is new, the registry, and what was reported. -/
structure Outcome where
  result : Except Error Bool
  registry : Registry
  events : List Event

/-- Registers an operation for a source. -/
def registerIn (source name : String) (operation : Operation) (registry : Registry) : Outcome :=
  let canonical := OperationName.canonical name
  match registry.entries.get? canonical with
  | some existing =>
    if existing.source = source then
      ⟨.ok false, registry, [.registeredBefore canonical source]⟩
    else ⟨.error (.operationTaken canonical existing.source source), registry, []⟩
  | none =>
    ⟨.ok true, ⟨registry.entries.insert canonical ⟨source, operation⟩⟩,
      [.registered canonical source]⟩

/-- Registers an operation for the surrounding program. -/
def register (name : String) (operation : Operation) (registry : Registry) : Outcome :=
  registerIn hostSource name operation registry

/-- The end of an installation: the results of the registrations up to the first error, the error,
the registry, and what was reported. -/
structure Installation where
  added : List Bool
  error : Option Error
  registry : Registry
  events : List Event

/-- Registers operations one after the other, with the source before their names, and stops at the
first error. -/
def installAll (source : String) : List (String × Operation) → Registry → Installation
  | [], registry => ⟨[], none, registry, []⟩
  | (name, operation) :: rest, registry =>
    let outcome := registerIn source (source ++ "." ++ name) operation registry
    match outcome.result with
    | .error error => ⟨[], some error, outcome.registry, outcome.events⟩
    | .ok added =>
      let others := installAll source rest outcome.registry
      ⟨added :: others.added, others.error, others.registry, outcome.events ++ others.events⟩

/-- Installs a plugin under its canonical name. -/
def install (plugin : Plugin) (registry : Registry) : Installation :=
  installAll (OperationName.canonical plugin.name) plugin.operations registry

end Registry

end Docscript

import Docscript.Context
import Docscript.Error
import Docscript.Event
import Docscript.Text.Listed

set_option autoImplicit false

namespace Docscript

structure Adapted where
  data : Value
  context : Context

/-- A conversion of data together with the context it arrives in. -/
abbrev Adapter := (data : Value) → (c : Context) → Adapted

structure AdapterRegistry where
  entries : Entries Adapter

namespace AdapterRegistry

def empty : AdapterRegistry := ⟨[]⟩

def contains (registry : AdapterRegistry) (name : String) : Bool := registry.entries.contains name

/-- The names of the adapters, in order of their code points. -/
def names (registry : AdapterRegistry) : List String :=
  registry.entries.keys.mergeSort fun a b => decide (a ≤ b)

def summary (registry : AdapterRegistry) : String :=
  "AdapterRegistry \x7b names: " ++ Text.listedAll registry.names ++ " \x7d"

/-- Adds an adapter under a name that is not taken. -/
def add (name : String) (adapter : Adapter) (registry : AdapterRegistry) :
    Except Error (AdapterRegistry × List Event) :=
  if registry.contains name then .error (.adapterTaken name)
  else .ok (⟨registry.entries.insert name adapter⟩, [.adapterRegistered name])

/-- Applies the adapter with a name. -/
def invoke (registry : AdapterRegistry) (name : String) (data : Value) (c : Context) :
    Except Error Adapted :=
  match registry.entries.get? name with
  | some adapter => .ok (adapter data c)
  | none => .error (.adapterMissing name)

end AdapterRegistry

end Docscript

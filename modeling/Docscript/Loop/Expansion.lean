import Docscript.Loop.Scopes
import Docscript.Template

set_option autoImplicit false

namespace Docscript

/-- One round: the compiled template and the scope it was compiled in. -/
structure Round where
  template : Value
  scope : Context

structure Expansion where
  scopes : Scopes
  template : Value
  options : CompileOptions

namespace Expansion

/-- The key and the template of a declaration, which is an object with one entry. -/
def split (declaration : Value) : Except Error (String × Value) :=
  match declaration with
  | .object [entry] => .ok entry
  | _ => .error .loopDeclaration

/-- The loop that a key declares, or the error of a key that declares none. -/
def loopOfKey (key : String) : Except Error Loop :=
  match Loop.parse? key with
  | some declared => .ok declared
  | none => .error (.loopKey key)

/-- The expansion of a declaration in a context. -/
def ofDeclaration (options : CompileOptions) (c : Context) (declaration : Value) :
    Except Error Expansion := do
  let (key, template) ← split declaration
  let declared ← loopOfKey key
  let scopes ← declared.bind c
  .ok ⟨scopes, template, options⟩

def sizeHint (expansion : Expansion) : Nat := expansion.scopes.sizeHint

def round (expansion : Expansion) (scope : Context) : Round :=
  ⟨Template.compile expansion.options scope expansion.template, scope⟩

/-- The next round and the rounds after it. -/
def next? (expansion : Expansion) : Option (Round × Expansion) :=
  expansion.scopes.next?.map fun (scope, rest) =>
    (expansion.round scope, { expansion with scopes := rest })

/-- The first `limit` rounds and what is left after them. -/
def take (limit : Nat) (expansion : Expansion) : List Round × Expansion :=
  let (scopes, rest) := expansion.scopes.take limit
  (scopes.map expansion.round, { expansion with scopes := rest })

end Expansion

end Docscript

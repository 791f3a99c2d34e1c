import Docscript.Error
import Docscript.Json.Reader
import Docscript.Template

/- The text of the settings is an object with two optional fields, or an array of up to two values
in the order of the fields. -/

set_option autoImplicit false

namespace Docscript

/-- The settings of an engine. -/
structure Config where
  keepPlaceholders : Bool := true
  builtins : Bool := true
  deriving DecidableEq

namespace Config

def compileOptions (config : Config) : CompileOptions := ⟨config.keepPlaceholders⟩

def toValue (config : Config) : Value :=
  .object [("keepPlaceholders", .bool config.keepPlaceholders),
    ("builtins", .bool config.builtins)]

inductive Field where
  | keepPlaceholders
  | builtins
  deriving DecidableEq

def field? (name : String) : Option Field :=
  if name = "keepPlaceholders" then some .keepPlaceholders
  else if name = "builtins" then some .builtins
  else none

/-- A setting read under its field, or something without meaning under any other key. -/
abbrev Setting := Option (Field × Bool)

def boolean : Json.Reader Bool
  | 't' :: rest => Json.literal "rue" true rest
  | 'f' :: rest => Json.literal "alse" false rest
  | _ => none

/-- A key and what stands under it, which must be a boolean only for a known field. -/
def setting (budget : Nat) : Json.Reader (String × Setting) :=
  Json.field (Json.string budget) fun name =>
    match field? name with
    | some field => fun text => (boolean text).map fun (b, rest) => (some (field, b), rest)
    | none => fun text => (Json.skipValue budget text).map fun (_, rest) => (none, rest)

/-- The configuration with the given settings; a field must not be set twice. -/
def ofSettings? (settings : List (Field × Bool)) : Option Config :=
  if (settings.map (·.1)).Nodup then
    some {
      keepPlaceholders := (settings.lookup .keepPlaceholders).getD true
      builtins := (settings.lookup .builtins).getD true }
  else none

def ofList? : List Bool → Option Config
  | [] => some {}
  | [keepPlaceholders] => some { keepPlaceholders }
  | [keepPlaceholders, builtins] => some { keepPlaceholders, builtins }
  | _ => none

def reader (budget : Nat) : Json.Reader Config
  | '[' :: rest => do
    let (values, rest) ← Json.sequence ']' boolean budget rest
    let config ← ofList? values
    some (config, rest)
  | '{' :: rest => do
    let (entries, rest) ← Json.sequence '}' (setting budget) budget rest
    let config ← ofSettings? (entries.filterMap (·.2))
    some (config, rest)
  | _ => none

/-- The configuration that a text stands for. -/
def parse (text : String) : Except Error Config :=
  match Json.readWhole? reader text with
  | some config => .ok config
  | none => .error .configMalformed

end Config

end Docscript

import Docscript.Json.Writer

set_option autoImplicit false

namespace Docscript

/-- For each field its messages, the fields in order of their code points. -/
structure ValidationErrors where
  fields : Entries (List String)
  deriving DecidableEq

namespace ValidationErrors

def empty : ValidationErrors := ⟨[]⟩

/-- Adds a message to a field in ordered fields. -/
def insertField (field message : String) : Entries (List String) → Entries (List String)
  | [] => [(field, [message])]
  | (name, messages) :: rest =>
    if field = name then (name, messages ++ [message]) :: rest
    else if field < name then (field, [message]) :: (name, messages) :: rest
    else (name, messages) :: insertField field message rest

/-- Adds a message to a field. -/
def insert (errors : ValidationErrors) (field message : String) : ValidationErrors :=
  ⟨insertField field message errors.fields⟩

def get? (errors : ValidationErrors) (field : String) : Option (List String) :=
  errors.fields.get? field

def size (errors : ValidationErrors) : Nat := errors.fields.length

/-- The text of a message: a string itself, any other value as compact text. -/
def messageText : Value → String
  | .string text => text
  | value => Json.compact value

/-- The messages that stand under a field: those of an array, none for null, else one. -/
def messagesOf : Value → List String
  | .array items => items.map messageText
  | .null => []
  | value => [messageText value]

def insertAll (errors : ValidationErrors) (field : String) (messages : List String) :
    ValidationErrors :=
  messages.foldl (fun done message => done.insert field message) errors

/-- The errors in an object of fields; any other value has none. -/
def ofValue : Value → ValidationErrors
  | .object entries =>
    entries.foldl (fun done (field, value) => done.insertAll field (messagesOf value)) empty
  | _ => empty

def toValue (errors : ValidationErrors) : Value :=
  .object (errors.fields.map fun (field, messages) => (field, .array (messages.map .string)))

end ValidationErrors

end Docscript

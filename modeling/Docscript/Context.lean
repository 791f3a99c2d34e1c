import Docscript.Path

set_option autoImplicit false

namespace Docscript

/-- The variables of a document. -/
structure Context where
  entries : Entries Value

namespace Context

def empty : Context := ⟨[]⟩

/-- The entries of an object; any other value makes an empty context. -/
def ofValue : Value → Context
  | .object entries => ⟨entries⟩
  | _ => empty

def toValue (c : Context) : Value := .object c.entries

/-- Puts a value under a top-level name. -/
def insert (c : Context) (name : String) (value : Value) : Context :=
  ⟨c.entries.insert name value⟩

/-- Takes out a top-level name. -/
def erase (c : Context) (name : String) : Context := ⟨c.entries.erase name⟩

/-- A copy with further variables, which hide those of the same name. -/
def extend (c : Context) (bound : Entries Value) : Context :=
  ⟨c.entries.insertAll bound⟩

/-- The value at the end of a path. A top-level name that is the whole path comes first; otherwise
the path is followed segment by segment. The content of a bracket is shorter than the path, so
that looking it up ends. -/
def find? (c : Context) (path : List Char) : Option Value :=
  if path.isEmpty then none
  else
    (c.entries.get? (String.ofList path)).or
      (match Path.segments path with
      | none => none
      | some [] => none
      | some steps =>
        let lookUp := fun inner => if inner.length < path.length then find? c inner else none
        c.toValue.descend? (steps.map (Segment.key lookUp)))
termination_by path.length

def get? (c : Context) (path : String) : Option Value := c.find? path.toList

def contains (c : Context) (path : String) : Bool := (c.get? path).isSome

/-- The entries of an object, none for any other value. -/
def entriesOf : Option Value → Entries Value
  | some (.object entries) => entries
  | _ => []

/-- Writes a value at the end of a row of names, through objects that are made where there is no
object yet. -/
def write (value : Value) : List String → Entries Value → Entries Value
  | [], entries => entries
  | [last], entries => entries.insert last value
  | name :: rest, entries =>
    entries.insert name (.object (write value rest (entriesOf (entries.get? name))))

/-- The names between the dots of a path. -/
def names (path : String) : List String := (Text.dottedParts path.toList).map String.ofList

/-- Writes a value at the end of a dotted path. A path without any name changes nothing. -/
def setPath (c : Context) (path : String) (value : Value) : Context :=
  ⟨write value (names path) c.entries⟩

mutual

/-- A value merged over another one: two objects entry by entry, otherwise the new value. -/
def merge (old : Option Value) : Value → Value
  | .object additions =>
    match old with
    | some (.object entries) => .object (mergeEntries entries additions)
    | _ => .object additions
  | value => value

def mergeEntries (entries : Entries Value) : List (String × Value) → Entries Value
  | [] => entries
  | (key, value) :: rest =>
    mergeEntries (entries.insert key (merge (entries.get? key) value)) rest

end

/-- The value inside one object for each name. -/
def nest (value : Value) : List String → Value
  | [] => value
  | name :: rest => .object [(name, nest value rest)]

def isDotted (name : String) : Bool := name.toList.contains '.'

/-- The row of names under which an entry is unfolded. -/
def unfoldedNames (name : String) : List String := if isDotted name then names name else [name]

/-- Merges one entry into unfolded entries. -/
def unfoldEntry (done : Entries Value) (entry : String × Value) : Entries Value :=
  match unfoldedNames entry.1 with
  | [] => done
  | first :: rest => done.insert first (merge (done.get? first) (nest entry.2 rest))

/-- Whether some top-level name is dotted. -/
def hasDotted (c : Context) : Bool := c.entries.any (isDotted ·.1)

/-- The context with its dotted names unfolded into nested objects, entry by entry in order. -/
def expanded (c : Context) : Context :=
  if c.hasDotted then ⟨c.entries.foldl unfoldEntry []⟩ else c

end Context

end Docscript

import Docscript.Error

set_option autoImplicit false

namespace Docscript.CommandLine

/-- The names on the way from the working directory. -/
abbrev Route := List (List Char)

/-- Files and directories by the routes to them. Every route on the way to one of them leads to a
directory too. -/
structure Files where
  files : List (Route × String)
  directories : List Route

inductive Node where
  | file (text : String)
  | directory

/-- How far a path has led: to somewhere in the working directory, or around it, where nothing is
known but that there are directories. -/
inductive Place where
  | inside (route : Route)
  | outside

namespace Files

/-- What a route leads to. -/
def node? (files : Files) (route : Route) : Option Node :=
  match files.files.lookup route with
  | some text => some (.file text)
  | none =>
    if route.isEmpty || files.directories.any (route.isPrefixOf ·) ||
        files.files.any (fun (file, _) => route.isPrefixOf file) then some .directory
    else none

/-- The length of a text in bytes. -/
def byteLength (text : List Char) : Nat := (String.ofList text).utf8ByteSize

/-- The greatest length in bytes of one name. -/
def maxName : Nat := 255

/-- The greatest length in bytes of a path. -/
def maxPath : Nat := 4095

/-- Follows one part of a path. What it starts from must be a directory; no part and a dot stay
there, two dots lead to the directory around it. -/
def follow (files : Files) (place : Place) (part : List Char) : Except ReadFault Place :=
  match place with
  | .outside =>
    if part ∈ [[], ['.'], ['.', '.']] then .ok .outside
    else if maxName < byteLength part then .error .nameTooLong
    else .error .missing
  | .inside route =>
    match files.node? route with
    | none => .error .missing
    | some (.file _) => .error .insideFile
    | some .directory =>
      if part ∈ [[], ['.']] then .ok (.inside route)
      else if part = ['.', '.'] then
        .ok (if route.isEmpty then .outside else .inside route.dropLast)
      else if maxName < byteLength part then .error .nameTooLong
      else .ok (.inside (route ++ [part]))

/-- Follows a path from part to part. -/
def followAll (files : Files) : Place → List (List Char) → Except ReadFault Place
  | place, [] => .ok place
  | place, part :: rest => do
    let next ← files.follow place part
    files.followAll next rest

/-- Where a path begins. A path that cannot be one is refused before anything is looked up. -/
def origin (path : List Char) : Except ReadFault Place :=
  if path.contains '\x00' then .error .zeroCharacter
  else if maxPath < byteLength path then .error .nameTooLong
  else match path with
    | [] => .error .missing
    | '/' :: _ => .ok .outside
    | _ => .ok (.inside [])

/-- The content of the file that a path leads to. -/
def read (files : Files) (path : String) : Except ReadFault String := do
  let start ← origin path.toList
  match ← files.followAll start (path.toList.splitOn '/') with
  | .outside => .error .directory
  | .inside route =>
    match files.node? route with
    | none => .error .missing
    | some .directory => .error .directory
    | some (.file text) => .ok text

/-- A directory of named contents. A name that ends with a slash is a directory. -/
def ofList (entries : List (String × String)) : Files :=
  let named := entries.map fun (name, text) => (name.toList.splitOn '/', text)
  let (directories, files) := named.partition fun (parts, _) => parts.getLast? == some []
  { files,
    directories := directories.map fun (parts, _) => parts.dropLast }

end Files

end Docscript.CommandLine

import Docscript.Text.Blank

/- Arguments are taken from left to right. The first one that is wrong, or that asks for help or the
version, decides; only then does a missing operand matter. -/

set_option autoImplicit false

namespace Docscript.CommandLine

inductive Command where
  | render
  | check
  | run
  deriving DecidableEq

/-- A well-formed command line. The operand is a document, an expression or a schema. -/
structure Invocation where
  command : Command
  operand : String
  context : Option String := none
  previous : Option String := none
  config : Option String := none
  deriving DecidableEq

/-- Why the arguments name nothing to do. -/
inductive Refusal where
  | usage
  | help
  | version
  deriving DecidableEq

inductive OptionName where
  | context
  | previous
  | config
  deriving DecidableEq

/-- What has been read of the arguments after a command. -/
structure Draft where
  operand : Option String := none
  context : Option String := none
  previous : Option String := none
  config : Option String := none

namespace Draft

/-- Sets an option, which must not be set yet. The name of a file must not be empty. -/
def set (draft : Draft) (name : OptionName) (value : String) : Except Refusal Draft :=
  match name with
  | .context =>
    if draft.context.isSome then .error .usage else .ok { draft with context := some value }
  | .previous =>
    if draft.previous.isSome then .error .usage else .ok { draft with previous := some value }
  | .config =>
    if draft.config.isSome || value.isEmpty then .error .usage
    else .ok { draft with config := some value }

def setOperand (draft : Draft) (value : String) : Except Refusal Draft :=
  if draft.operand.isSome then .error .usage else .ok { draft with operand := some value }

end Draft

/-- What an argument in front of the double dash is. -/
inductive Shape where
  | endOfOptions
  | long (name : List Char) (value : Option (List Char))
  | short (letter : Char) (value : Option (List Char))
  | plain

/-- A value may follow the letter of a short option, with or without an equals sign. -/
def shortValue : List Char → Option (List Char)
  | [] => none
  | '=' :: value => some value
  | value => some value

def Shape.of (argument : List Char) : Shape :=
  match argument with
  | ['-', '-'] => .endOfOptions
  | '-' :: '-' :: rest =>
    match Text.splitOnce? ['='] rest with
    | some (name, value) => .long name (some value)
    | none => .long rest none
  | '-' :: letter :: rest => .short letter (shortValue rest)
  | _ => .plain

/-- The option with a long name, among those of a command. -/
def longOption? (command : Option Command) (name : List Char) : Option OptionName :=
  if name = "config".toList then some .config
  else if name = "context".toList ∧ command.isSome then some .context
  else if name = "previous".toList ∧ command = some .run then some .previous
  else none

/-- The option with a short name, among those of a command. -/
def shortOption? (command : Option Command) (letter : Char) : Option OptionName :=
  if letter = 'c' ∧ command.isSome then some .context else none

/-- What an argument asks for, once options without a value are told from those with one. -/
inductive Request where
  | endOfOptions
  | refuse (refusal : Refusal)
  | option (name : OptionName) (value : Option String)
  | plain

/-- The request of an argument after the given command, or before any command. Only before a
command can the version be asked for. -/
def Request.of (command : Option Command) (argument : String) : Request :=
  match Shape.of argument.toList with
  | .endOfOptions => .endOfOptions
  | .plain => .plain
  | .long name value =>
    if name = "help".toList ∧ value = none then .refuse .help
    else if name = "version".toList ∧ value = none ∧ command = none then .refuse .version
    else match longOption? command name with
      | some found => .option found (value.map String.ofList)
      | none => .refuse .usage
  | .short letter value =>
    if letter = 'h' then .refuse .help
    else if letter = 'V' ∧ command = none then .refuse .version
    else match shortOption? command letter with
      | some found => .option found (value.map String.ofList)
      | none => .refuse .usage

/-- Whether an argument can be the value of the option before it. -/
def isValue (argument : String) : Bool :=
  match Shape.of argument.toList with
  | .plain => true
  | _ => false

/-- The operands after the double dash. -/
def finish (draft : Draft) : List String → Except Refusal Draft
  | [] => .ok draft
  | operand :: rest => do
    let draft ← draft.setOperand operand
    finish draft rest

/-- The arguments after a command. -/
def commandArguments (command : Command) (draft : Draft) : List String → Except Refusal Draft
  | [] => .ok draft
  | argument :: rest =>
    match Request.of (some command) argument, rest with
    | .endOfOptions, rest => finish draft rest
    | .refuse refusal, _ => .error refusal
    | .plain, rest => do
      let draft ← draft.setOperand argument
      commandArguments command draft rest
    | .option name (some value), rest => do
      let draft ← draft.set name value
      commandArguments command draft rest
    | .option _ none, [] => .error .usage
    | .option name none, value :: rest =>
      if isValue value then do
        let draft ← draft.set name value
        commandArguments command draft rest
      else .error .usage

def commandNamed? (name : String) : Option Command :=
  match name with
  | "render" => some .render
  | "check" => some .check
  | "run" => some .run
  | _ => none

/-- The refusal of the words after `help`, which may name one command or `help` itself. -/
def helpOn : List String → Refusal
  | [] => .help
  | [name] => if (commandNamed? name).isSome ∨ name = "help" then .help else .usage
  | _ => .usage

/-- The invocation of a command, from the arguments after it. -/
def invocation (command : Command) (arguments : List String) : Except Refusal Invocation := do
  let draft ← commandArguments command {} arguments
  match draft.operand with
  | none => .error .usage
  | some operand =>
    .ok { command, operand, context := draft.context, previous := draft.previous,
          config := draft.config }

/-- What has been read before the command: the configuration file, or its refusal, which is held
back until the next argument is known. -/
abbrev Opening := Except Refusal (Option String)

/-- Names the configuration file, which must not be named yet, and not by an empty name. -/
def nameConfig (config : Option String) (value : String) : Opening :=
  if config.isSome || value.isEmpty then .error .usage else .ok (some value)

/-- The invocation of arguments of which none has named a command yet. A command has the first say:
a configuration file named in front of it is refused only if the arguments after it are in order.
A configuration file named after the command takes the place of one named before it. -/
def beforeCommand (opening : Opening) : List String → Except Refusal Invocation
  | [] => .error .usage
  | argument :: rest =>
    match Request.of none argument, rest with
    | .endOfOptions, _ => .error .usage
    | .refuse refusal, _ => do
      let _ ← opening
      .error refusal
    | .plain, rest =>
      match commandNamed? argument with
      | some command => do
        let invocation ← invocation command rest
        let config ← opening
        .ok { invocation with config := invocation.config.or config }
      | none => if argument = "help" then .error (helpOn rest) else .error .usage
    | .option _ (some value), rest => do
      let config ← nameConfig (← opening) value
      beforeCommand (.ok config) rest
    | .option _ none, [] => .error .usage
    | .option _ none, value :: rest => do
      let config ← opening
      if isValue value then beforeCommand (nameConfig config value) rest else .error .usage

/-- The invocation that the arguments stand for. -/
def parse (arguments : List String) : Except Refusal Invocation :=
  beforeCommand (.ok none) arguments

end Docscript.CommandLine

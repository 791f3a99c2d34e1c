import Docscript.Adapter
import Docscript.Config
import Docscript.Document
import Docscript.Loop.Expansion
import Docscript.Pipeline

set_option autoImplicit false

namespace Docscript

/-- A configuration with its own operations and adapters. -/
structure Engine where
  config : Config
  operations : Registry
  adapters : AdapterRegistry

namespace Engine

/-- An engine as configured, with no adapter and no operation but those of the library. -/
def ofConfig (config : Config) : Engine :=
  { config,
    operations := if config.builtins then Registry.withBuiltins else Registry.empty,
    adapters := AdapterRegistry.empty }

def compileOptions (engine : Engine) : CompileOptions := engine.config.compileOptions

/-- Compiles placeholders and leaves conditions and loops as they are. -/
def compile (engine : Engine) (c : Context) (template : Value) : Value :=
  Template.compile engine.compileOptions c template

def render (engine : Engine) (c : Context) (document : Value) : Except Error Value :=
  Document.render engine.compileOptions c document

def evaluate (_ : Engine) (c : Context) (expression : String) : Except Error Bool :=
  Expression.evaluate expression c

def expand (engine : Engine) (c : Context) (declaration : Value) : Except Error Expansion :=
  Expansion.ofDeclaration engine.compileOptions c declaration

def pipeline (engine : Engine) : Pipeline :=
  { registry := engine.operations, options := engine.compileOptions }

/-- Runs a schema of operations; there is no result if it was aborted. -/
def handle (engine : Engine) (schema previous : Value) (c : Context) : Run (Option Value) :=
  engine.pipeline.handle schema previous c

def adapt (engine : Engine) (name : String) (data : Value) (c : Context) : Except Error Adapted :=
  engine.adapters.invoke name data c

end Engine

end Docscript

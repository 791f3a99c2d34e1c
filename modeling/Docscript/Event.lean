set_option autoImplicit false

namespace Docscript

inductive Level where
  | debug
  | info
  | warn
  deriving DecidableEq

def Level.name : Level → String
  | debug => "DEBUG"
  | info => "INFO"
  | warn => "WARN"

/-- What the library reports while it works. -/
inductive Event where
  | registered (operation source : String)
  | registeredBefore (operation source : String)
  | running (operation : String)
  | abortRequested (operation : String)
  | pipelineAborted
  | failed (operation reason : String)
  | handling (operation reason : String)
  | logged (text : String)
  | adapterRegistered (adapter : String)
  deriving DecidableEq

namespace Event

def level : Event → Level
  | registered _ _ => .debug
  | registeredBefore _ _ => .warn
  | running _ => .debug
  | abortRequested _ => .debug
  | pipelineAborted => .debug
  | failed _ _ => .warn
  | handling _ _ => .warn
  | logged _ => .info
  | adapterRegistered _ => .debug

def message : Event → String
  | registered _ _ => "operation registered"
  | registeredBefore _ _ => "operation already registered by this source, skipping"
  | running _ => "running operation"
  | abortRequested _ => "operation requested abort"
  | pipelineAborted => "pipeline aborted"
  | failed _ _ => "operation failed"
  | handling _ _ => "operation failed, running on_error"
  | logged _ => "flow.log"
  | adapterRegistered _ => "adapter registered"

/-- The named details of an event, in the order in which they are reported. -/
def fields : Event → List (String × String)
  | registered operation source => [("operation", operation), ("source", source)]
  | registeredBefore operation source => [("operation", operation), ("source", source)]
  | running operation => [("operation", operation)]
  | abortRequested operation => [("operation", operation)]
  | pipelineAborted => []
  | failed operation reason => [("operation", operation), ("error", reason)]
  | handling operation reason => [("operation", operation), ("error", reason)]
  | logged text => [("text", text)]
  | adapterRegistered adapter => [("adapter", adapter)]

end Event

end Docscript

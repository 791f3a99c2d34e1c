import Docscript.Expression.Token
import Docscript.Value

set_option autoImplicit false

namespace Docscript

/-- Why keys do not form a condition block. -/
inductive BlockFault where
  | notCondition (key : String)
  | afterElse (key : String)
  | secondIf
  | elseIfBeforeIf (key : String)
  | elseBeforeIf
  | noIf
  deriving DecidableEq

namespace BlockFault

def message : BlockFault → String
  | notCondition key => "'" ++ key ++ "' is not a condition key"
  | afterElse key => "'" ++ key ++ "' appears after 'else'"
  | secondIf => "exactly one 'if' key is allowed"
  | elseIfBeforeIf key => "'" ++ key ++ "' must follow an 'if' key"
  | elseBeforeIf => "'else' must follow an 'if' key"
  | noIf => "an 'if' key is required"

end BlockFault

/-- How messages name the type of a value. -/
def Value.typeName : Value → String
  | .null => "null"
  | .bool _ => "boolean"
  | .number _ => "number"
  | .string _ => "string"
  | .array _ => "array"
  | .object _ => "object"

/-- Why a value is no schema of operations. -/
inductive SchemaFault where
  | shape (found : Value)
  | step (index : Nat) (found : Value)

namespace SchemaFault

def message : SchemaFault → String
  | shape found => "expected an operation name, object or array, found " ++ found.typeName
  | step index found =>
    "step " ++ String.ofList (Text.writeNat index) ++
      " must be an object or an operation name, found " ++ found.typeName

end SchemaFault

/-- Why a file could not be read. -/
inductive ReadFault where
  | missing
  | directory
  | insideFile
  | nameTooLong
  | zeroCharacter
  deriving DecidableEq

namespace ReadFault

def message : ReadFault → String
  | missing => "No such file or directory (os error 2)"
  | directory => "Is a directory (os error 21)"
  | insideFile => "Not a directory (os error 20)"
  | nameTooLong => "File name too long (os error 36)"
  | zeroCharacter => "file name contained an unexpected NUL byte"

end ReadFault

/-- Everything that can go wrong, each with a stable code and a message. -/
inductive Error where
  | expression (source : String) (fault : ExpressionFault)
  | conditionBlock (fault : BlockFault)
  | loopKey (key : String)
  | loopDeclaration
  | iterableMissing (path : String)
  | notArray (path : String)
  | notObject (path : String)
  | timesBound
  | rangeBound
  | loopPlacement (key : String)
  | branchPlacement
  | operationMissing (name : String)
  | operationTaken (name holder claimant : String)
  | operationFailed (operation message : String) (data : Value)
  | adapterTaken (name : String)
  | adapterMissing (name : String)
  | schema (fault : SchemaFault)
  | configUnreadable (path : String) (fault : ReadFault)
  | configMalformed

namespace Error

/-- The stable classification of an error. -/
def code : Error → String
  | expression _ _ => "STENCIL_E_EXPR_SYNTAX"
  | conditionBlock _ => "STENCIL_E_CONDITION_BLOCK"
  | loopKey _ => "STENCIL_E_LOOP_SYNTAX"
  | loopDeclaration => "STENCIL_E_LOOP_DECLARATION"
  | iterableMissing _ => "STENCIL_E_LOOP_ITERABLE"
  | notArray _ => "STENCIL_E_LOOP_TYPE"
  | notObject _ => "STENCIL_E_LOOP_TYPE"
  | timesBound => "STENCIL_E_LOOP_VALUE"
  | rangeBound => "STENCIL_E_LOOP_VALUE"
  | loopPlacement _ => "STENCIL_E_DOCUMENT_SHAPE"
  | branchPlacement => "STENCIL_E_DOCUMENT_SHAPE"
  | operationMissing _ => "STENCIL_E_OPERATION_MISSING"
  | operationTaken _ _ _ => "STENCIL_E_OPERATION_DUPLICATE"
  | operationFailed _ _ _ => "STENCIL_E_OPERATION_FAILED"
  | adapterTaken _ => "STENCIL_E_ADAPTER_DUPLICATE"
  | adapterMissing _ => "STENCIL_E_ADAPTER_MISSING"
  | schema _ => "STENCIL_E_SCHEMA_INVALID"
  | configUnreadable _ _ => "STENCIL_E_CONFIG"
  | configMalformed => "STENCIL_E_CONFIG"

def message : Error → String
  | expression source fault => "invalid expression '" ++ source ++ "': " ++ fault.message
  | conditionBlock fault => "invalid condition block: " ++ fault.message
  | loopKey _ => "Invalid for loop syntax"
  | loopDeclaration => "loop declaration must be an object with exactly one loop key"
  | iterableMissing path => "Iterable '" ++ path ++ "' not found in context"
  | notArray path => "'" ++ path ++ "' is not an array"
  | notObject path => "'" ++ path ++ "' is not an object"
  | timesBound => "Times loop requires an integer value"
  | rangeBound => "Range values must be integers"
  | loopPlacement key => "loop key '" ++ key ++ "' cannot share an object with other keys"
  | branchPlacement => "condition branch inside an object must resolve to an object"
  | operationMissing name => "operation '" ++ name ++ "' is not registered"
  | operationTaken name holder claimant =>
    "operation '" ++ name ++ "' is already registered by '" ++ holder ++ "' (attempted by '" ++
      claimant ++ "')"
  | operationFailed operation message _ => "operation '" ++ operation ++ "' failed: " ++ message
  | adapterTaken name => "adapter '" ++ name ++ "' is already registered"
  | adapterMissing name => "adapter '" ++ name ++ "' is not registered"
  | schema fault => "invalid operations schema: " ++ fault.message
  | configUnreadable path fault => "failed to read config " ++ path ++ ": " ++ fault.message
  | configMalformed => "failed to parse config"

/-- Whether the error is found by reading keys and expressions, before anything is evaluated. -/
def isGrammar : Error → Bool
  | expression _ _ => true
  | conditionBlock _ => true
  | loopKey _ => true
  | loopDeclaration => true
  | _ => false

end Error

end Docscript

/-!
# Faults of templates
-/

namespace VectorIcon.Template

/-- Why a template gives no text. -/
inductive Error
  | malformed
  | undefinedValue
  | unknownFilter (name : String)
  | unknownTest (name : String)
  | unknownFunction (name : String)
  | unknownMethod (name : String)
  | badArguments (name : String)
  | badOperands
  | notIterable
  | badTarget
  | tooDeep
  deriving Repr, DecidableEq

/-- The message of a fault. -/
def Error.message : Error → String
  | .malformed => "syntax error"
  | .undefinedValue => "undefined value"
  | .unknownFilter name => "unknown filter: filter " ++ name ++ " is unknown"
  | .unknownTest name => "unknown test: test " ++ name ++ " is unknown"
  | .unknownFunction name => "unknown function: " ++ name ++ " is unknown"
  | .unknownMethod name => "unknown method: object has no method named " ++ name
  | .badArguments name => "invalid operation: bad arguments of " ++ name
  | .badOperands => "invalid operation: tried to use an operator on unsupported types"
  | .notIterable => "invalid operation: value is not iterable"
  | .badTarget => "cannot unpack: sequence of wrong length"
  | .tooDeep => "invalid operation: recursion limit exceeded"

end VectorIcon.Template

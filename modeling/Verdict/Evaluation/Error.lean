import Verdict.Host.Writer

namespace Verdict

-- Why a formula has no value in a context.
inductive EvalError
  | typesMismatch
  | typesNotLogical
  | unknownVariable (name : String)
  | unsupportedValue (value : HostValue)
  | invalidNumber (text : String)

def EvalError.message : EvalError → String
  | .typesMismatch => "Types mismatch."
  | .typesNotLogical => "Types are not logical."
  | .unknownVariable name => "Unknown variable '" ++ name ++ "'."
  | .unsupportedValue value => "Invalid variable type: " ++ value.render ++ "."
  | .invalidNumber text => "Invalid number '" ++ text ++ "'."

end Verdict

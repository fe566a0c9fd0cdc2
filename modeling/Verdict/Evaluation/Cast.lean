import Verdict.Evaluation.Error
import Verdict.Formula.Constant

namespace Verdict.Constant

mutual

-- The constant of a host value. Null, booleans and objects have none, and the first of them within
-- a value is reported.
def ofHost : HostValue → Except EvalError Constant
  | .string text => .ok (.string text)
  | .number value => .ok (.number (String.ofList value.render))
  | .array items => (ofHostItems items).map .array
  | value => .error (.unsupportedValue value)

def ofHostItems : List HostValue → Except EvalError (List Constant)
  | [] => .ok []
  | item :: items => do
    let item ← ofHost item
    let items ← ofHostItems items
    return item :: items

end

end Verdict.Constant

import Verdict.Evaluation.Error
import Verdict.Formula.Constant
import Verdict.Formula.Operator
import Verdict.Text.Blank

namespace Verdict

namespace Constant

-- The value of a number's text, around which white space may stand.
def readNumber (text : String) : Except EvalError Binary64 :=
  match Binary64.read? (Text.trim text.toList) with
  | some value => .ok value
  | none => .error (.invalidNumber text)

mutual

-- Equality within a kind, arrays item by item up to the first difference. Nil differs from all
-- other constants, and constants of two other kinds cannot be compared.
def equals : Constant → Constant → Except EvalError Bool
  | .nil, .nil => .ok true
  | .bool left, .bool right => .ok (left = right)
  | .nil, _ | _, .nil => .ok false
  | .number left, .number right => do
    return (← readNumber left).place = (← readNumber right).place
  | .string left, .string right => .ok (left = right)
  | .array left, .array right =>
    if left.length = right.length then equalItems left right else .ok false
  | _, _ => .error .typesMismatch

def equalItems : List Constant → List Constant → Except EvalError Bool
  | left :: lefts, right :: rights => do
    if ← equals left right then equalItems lefts rights else return false
  | _, _ => .ok true

end

def notEquals (left right : Constant) : Except EvalError Bool := do
  return !(← left.equals right)

-- Numbers are in the order of their values and strings in that of their characters' codes. Nothing
-- else has an order.
def lessThan : Constant → Constant → Except EvalError Bool
  | .number left, .number right => do
    return (← readNumber left).place < (← readNumber right).place
  | .string left, .string right => .ok (left < right)
  | _, _ => .error .typesMismatch

def lessEqual (left right : Constant) : Except EvalError Bool := do
  if ← left.lessThan right then return true else left.equals right

def greaterThan (left right : Constant) : Except EvalError Bool := do
  if ← left.lessThan right then return false else left.notEquals right

def greaterEqual (left right : Constant) : Except EvalError Bool := do
  return !(← left.lessThan right)

def toBool : Constant → Except EvalError Bool
  | .bool value => .ok value
  | _ => .error .typesNotLogical

-- Both constants must be booleans, also where the first decides the outcome.
def and (left right : Constant) : Except EvalError Bool := do
  let left ← left.toBool
  let right ← right.toBool
  return left && right

def or (left right : Constant) : Except EvalError Bool := do
  let left ← left.toBool
  let right ← right.toBool
  return left || right

-- Whether a constant is equal to true, if it can be compared with a boolean.
def isTrue (constant : Constant) : Except EvalError Bool := constant.equals (.bool true)

end Constant

def Operator.apply : Operator → Constant → Constant → Except EvalError Bool
  | .and => Constant.and
  | .or => Constant.or
  | .equal => Constant.equals
  | .notEqual => Constant.notEquals
  | .greater => Constant.greaterThan
  | .greaterEqual => Constant.greaterEqual
  | .less => Constant.lessThan
  | .lessEqual => Constant.lessEqual

end Verdict

import Verdict.Context
import Verdict.Evaluation.Cast
import Verdict.Evaluation.Comparison
import Verdict.Formula.Basic

namespace Verdict

-- The value of a variable, which is nil if nothing is bound to its name.
def Context.lookup (context : Context) (name : String) : Except EvalError Constant :=
  match context.get? name with
  | some value => Constant.ofHost value
  | none => .ok .nil

-- How many items the array has that is bound to a name.
def Context.itemCount (context : Context) (name : String) : Except EvalError Constant :=
  match context.get? name with
  | none => .error (.unknownVariable name)
  | some value => do
    match ← Constant.ofHost value with
    | .array items => return .number items.length.repr
    | _ => .error .typesMismatch

namespace Formula

-- The value of a formula. The right side of a conjunction is not looked at unless the left side is
-- true, so that `a != nil && a.count == 1` has a value where `a` is not bound.
def evaluate (context : Context) : Formula → Except EvalError Constant
  | .constant value => .ok value
  | .variable name => context.lookup name
  | .not operand => do
    let value ← operand.evaluate context
    return .bool (!(← value.isTrue))
  | .count operand =>
    match operand with
    | .variable name => context.itemCount name
    | _ => .error .typesMismatch
  | .binary .and left right => do
    if (← left.evaluate context) = .bool true then
      let value ← right.evaluate context
      return .bool (← value.isTrue)
    else return .bool false
  | .binary op left right => do
    let left ← left.evaluate context
    let right ← right.evaluate context
    return .bool (← op.apply left right)

-- Whether the value of a formula is true. A number, string or array is neither true nor false.
def isTrue (context : Context) (formula : Formula) : Except EvalError Bool := do
  (← formula.evaluate context).isTrue

end Formula

end Verdict

import Verdict.Formula.Constant
import Verdict.Formula.Operator

namespace Verdict

-- What a source denotes. Only a variable has a count, but `count` can be built over any formula.
inductive Formula
  | constant (value : Constant)
  | variable (name : String)
  | not (operand : Formula)
  | count (operand : Formula)
  | binary (op : Operator) (left right : Formula)
deriving DecidableEq

namespace Formula

-- The number of formulas on the longest way down, leaves having depth 1.
def depth : Formula → Nat
  | .constant _ | .variable _ => 1
  | .not operand | .count operand => operand.depth + 1
  | .binary _ left right => max left.depth right.depth + 1

theorem depth_pos (formula : Formula) : 0 < formula.depth := by
  cases formula <;> simp [depth]

-- Each negation adds one level.
theorem depth_repeat_not (times : Nat) (formula : Formula) :
    (Nat.repeat Formula.not times formula).depth = formula.depth + times := by
  induction times with
  | zero => rfl
  | succ times ih => simp [Nat.repeat, depth, ih, Nat.add_assoc]

-- Whether a formula is certain by its form to have a boolean value whenever it has one at all.
def isLogical : Formula → Bool
  | .constant value => value.isLogical
  | .not _ | .binary _ _ _ => true
  | .variable _ | .count _ => false

-- The text of a formula, with brackets around each operator and its operands.
def chars : Formula → List Char
  | .constant value => value.chars
  | .variable name => name.toList
  | .not operand => '!' :: operand.chars
  | .count operand => operand.chars ++ ".count".toList
  | .binary op left right =>
    '(' :: (left.chars ++ ' ' :: (op.symbol.toList ++ ' ' :: (right.chars ++ [')'])))

def render (formula : Formula) : String := String.ofList formula.chars

end Formula

end Verdict

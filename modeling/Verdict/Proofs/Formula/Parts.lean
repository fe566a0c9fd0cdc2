import Mathlib.Algebra.Order.Group.Multiset
import Verdict.Proofs.Formula.Bracketing

namespace Verdict.Formula

-- The largest parts of a formula that have no operator at their top, from left to right.
def operands : Formula → List Formula
  | .binary _ left right => left.operands ++ right.operands
  | formula => [formula]

-- The operators of a formula wherever they stand in it, from left to right.
def operators : Formula → List Operator
  | .constant _ | .variable _ => []
  | .not operand | .count operand => operand.operators
  | .binary op left right => left.operators ++ op :: right.operators

theorem operands_of_isOperand {formula : Formula} (hoperand : formula.isOperand) :
    formula.operands = [formula] := by
  cases formula with
  | binary op left right => simp [isOperand] at hoperand
  | _ => rfl

theorem operators_repeat_not (times : Nat) (formula : Formula) :
    (Nat.repeat Formula.not times formula).operators = formula.operators := by
  induction times with
  | zero => rfl
  | succ times ih => exact ih

-- An operator inside of an operand would join nothing at the top.
theorem length_operands {formula : Formula}
    (hplain : ∀ operand ∈ formula.operands, operand.operators = []) :
    formula.operands.length = formula.operators.length + 1 := by
  induction formula with
  | binary op left right ihleft ihright =>
      have hleft := ihleft fun operand hmem => hplain operand (List.mem_append_left _ hmem)
      have hright := ihright fun operand hmem => hplain operand (List.mem_append_right _ hmem)
      simp only [operands, operators, List.length_append, List.length_cons]
      omega
  | not operand ih =>
      have hnone : (not operand).operators = [] := hplain (.not operand) (by simp [operands])
      rw [hnone]
      rfl
  | count operand ih =>
      have hnone : (count operand).operators = [] := hplain (.count operand) (by simp [operands])
      rw [hnone]
      rfl
  | _ => rfl

theorem coe_operands_binary (op : Operator) (left right : Formula) :
    ((binary op left right).operands : Multiset Formula) =
      0 + ((left.operands : Multiset Formula) + right.operands) := by
  rw [zero_add, Multiset.coe_add]
  rfl

theorem coe_operators_binary (op : Operator) (left right : Formula) :
    ((binary op left right).operators : Multiset Operator) =
      {op} + ((left.operators : Multiset Operator) + right.operators) := by
  rw [Multiset.singleton_add, Multiset.coe_add, Multiset.cons_coe]
  exact Multiset.coe_eq_coe.mpr List.perm_middle

end Verdict.Formula

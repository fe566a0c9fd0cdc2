import Verdict.Source.Operand

namespace Verdict

-- A source read from left to right is a sequence of operands and operators. An operand carries the
-- error that reading it on its own gives.
inductive Segment
  | operand (reading : Except ParseError Entry)
  | operator (op : Operator)

namespace Segment

-- The segments of the tokens behind the first `skipped`, which belong to an earlier segment.
def group (skipped : Nat) : List Token → List Segment
  | [] => []
  | token :: tokens =>
    match skipped with
    | skipped + 1 => group skipped tokens
    | 0 =>
      match token with
      | .bool value => .operand (.ok (.leaf (.constant (.bool value)))) :: group 0 tokens
      | .operator op => .operator op :: group 0 tokens
      | .word text =>
        let (reading, taken) := Operand.read text.toList tokens
        .operand reading :: group taken tokens

theorem group_eq_drop (skipped : Nat) (tokens : List Token) :
    group skipped tokens = group 0 (tokens.drop skipped) := by
  induction tokens generalizing skipped with
  | nil => simp [group]
  | cons token tokens ih =>
    cases skipped with
    | zero => rfl
    | succ skipped => simpa [group] using ih skipped

def ofTokens (tokens : List Token) : List Segment := group 0 tokens

end Segment

end Verdict

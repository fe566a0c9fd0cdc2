namespace Verdict

-- No formula is deeper than this, and no more operators than this wait for their right operands.
def maxDepth : Nat := 256

-- Why a source does not denote a formula.
inductive ParseError
  | emptySource
  | missingRightOperand
  | unclosedLiteral
  | invalidToken (text : String)
  | unknownOperator (symbol : String)
  | invalidExpression
  | nestingTooDeep
deriving DecidableEq

def ParseError.message : ParseError → String
  | .emptySource => "Expression is empty."
  | .missingRightOperand => "Infix operator is missing its second parameter."
  | .unclosedLiteral => "Missing closing quote or bracket."
  | .invalidToken text => "Invalid token: " ++ text ++ "."
  | .unknownOperator symbol => "Unknown operator: " ++ symbol ++ "."
  | .invalidExpression => "Invalid expression."
  | .nestingTooDeep => "Expression nests deeper than " ++ maxDepth.repr ++ " levels."

end Verdict

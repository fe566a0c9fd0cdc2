import Verdict.Number.Binary64

namespace Verdict.Lexeme

def isVariableName (text : List Char) : Bool :=
  text ≠ [] && text.all fun c => c.isAlphanum || c = '_'

-- A finite number that starts with a digit, a sign or a point, so that no name of infinity or NaN
-- is a number.
def isNumber (text : List Char) : Bool :=
  match text with
  | [] => false
  | c :: _ =>
    (c.isDigit || c = '-' || c = '+' || c = '.') && (Binary64.read? text).any Binary64.isFinite

-- A text made of the characters of operators, which is no operand.
def isOperatorLike (text : List Char) : Bool :=
  text ≠ [] && text.all fun c => c ∈ ['&', '|', '=', '!', '<', '>']

end Verdict.Lexeme

import Verdict.Formula.Operator
import Verdict.Source.Error
import Verdict.Text.LowerCase

namespace Verdict

-- The parts of a source between its spaces.
inductive Token
  | bool (value : Bool)
  | operator (op : Operator)
  | word (text : String)
deriving DecidableEq

namespace Token

def text : Token → String
  | .bool true => "true"
  | .bool false => "false"
  | .operator op => op.symbol
  | .word text => text

-- The token of a whole lexeme. One that only starts with a boolean or an operator is a word.
def ofLexeme (lexeme : List Char) : Token :=
  let text := String.ofList lexeme
  if text = "true" then .bool true
  else if text = "false" then .bool false
  else
    match Operator.ofSymbol? text with
    | some op => .operator op
    | none => .word text

-- Nothing of a lexeme is lost in its token.
theorem text_ofLexeme (lexeme : List Char) : (ofLexeme lexeme).text = String.ofList lexeme := by
  unfold ofLexeme
  by_cases htrue : String.ofList lexeme = "true"
  · simp [htrue, text]
  by_cases hfalse : String.ofList lexeme = "false"
  · simp [hfalse, text]
  simp only [htrue, hfalse, if_false]
  cases hop : Operator.ofSymbol? (String.ofList lexeme) with
  | none => rfl
  | some op => exact Operator.symbol_of_ofSymbol? hop

-- The parts of a text between its runs of spaces. No other white space divides it.
def lexemes (text : List Char) : List (List Char) := (text.splitOn ' ').filter (· ≠ [])

-- The tokens of a source, whose letters all count as lower-case ones.
def scan (source : String) : Except ParseError (List Token) :=
  if source = "" then .error .emptySource
  else .ok ((lexemes (Text.toLower source.toList)).map ofLexeme)

end Token

end Verdict

import Verdict.Formula.Basic
import Verdict.Source.Lexeme
import Verdict.Source.Token
import Verdict.Text.Blank

namespace Verdict

-- A formula under construction and its depth, recorded so that no limit check has to measure it.
structure Entry where
  formula : Formula
  depth : Nat
deriving DecidableEq

namespace Entry

def leaf (formula : Formula) : Entry := ⟨formula, 1⟩

def count (name : String) : Entry := ⟨.count (.variable name), 2⟩

def checked (entry : Entry) : Except ParseError Entry :=
  if entry.depth ≤ maxDepth then .ok entry else .error .nestingTooDeep

def negated (times : Nat) (entry : Entry) : Except ParseError Entry :=
  checked ⟨Nat.repeat Formula.not times entry.formula, entry.depth + times⟩

def joined (op : Operator) (left right : Entry) : Except ParseError Entry :=
  checked ⟨.binary op left.formula right.formula, max left.depth right.depth + 1⟩

end Entry

namespace Operand

-- The text of a literal from its first piece up to the first piece that ends in `terminator`, and
-- how many tokens it takes up past the first piece. One space stands between two pieces.
def takeUntil? (terminator : Char) (piece : List Char) : List Token → Option (List Char × Nat)
  | [] => if piece.getLast? = some terminator then some (piece.dropLast, 0) else none
  | token :: tokens =>
    if piece.getLast? = some terminator then some (piece.dropLast, 0)
    else (takeUntil? terminator token.text.toList tokens).map fun (text, taken) =>
      (piece ++ ' ' :: text, taken + 1)

def unquote? : List Char → Option (List Char)
  | '\'' :: rest => if rest.getLast? = some '\'' then some rest.dropLast else none
  | _ => none

def readItem (piece : List Char) : Except ParseError Constant :=
  match unquote? piece with
  | some text => .ok (.string (String.ofList text))
  | none =>
    if Lexeme.isNumber piece then .ok (.number (String.ofList piece))
    else .error (.invalidToken (String.ofList piece))

-- The array whose items stand between commas, with any white space around them.
def readArray (body : List Char) : Except ParseError Constant :=
  if Text.trim body = [] then .ok (.array [])
  else ((body.splitOn ',').mapM fun piece => readItem (Text.trim piece)).map .array

def readName (text : List Char) : Except ParseError Entry :=
  if Lexeme.isVariableName text then .ok (.leaf (.variable (String.ofList text)))
  else
    match text.splitOn '.' with
    | [name, member] =>
      if Lexeme.isVariableName name ∧ member = "count".toList then
        .ok (.count (String.ofList name))
      else .error (.invalidToken (String.ofList text))
    | _ => .error (.invalidToken (String.ofList text))

-- Reads an operand without exclamation marks in front. The second part says how many of the tokens
-- that follow belong to it; a literal that never ends takes all of them.
def readBare (text : List Char) (following : List Token) : Except ParseError Entry × Nat :=
  if text = "true".toList then (.ok (.leaf (.constant (.bool true))), 0)
  else if text = "false".toList then (.ok (.leaf (.constant (.bool false))), 0)
  else if Lexeme.isNumber text then
    (.ok (.leaf (.constant (.number (String.ofList text)))), 0)
  else
    match text with
    | '\'' :: first =>
      match takeUntil? '\'' first following with
      | some (body, taken) => (.ok (.leaf (.constant (.string (String.ofList body)))), taken)
      | none => (.error .unclosedLiteral, following.length)
    | '[' :: first =>
      match takeUntil? ']' first following with
      | some (body, taken) => ((readArray body).map fun array => .leaf (.constant array), taken)
      | none => (.error .unclosedLiteral, following.length)
    | _ => (readName text, 0)

-- Reads the operand that starts with a word. Each exclamation mark in front negates it once.
def read (word : List Char) (following : List Token) : Except ParseError Entry × Nat :=
  if Lexeme.isOperatorLike word then (.error (.unknownOperator (String.ofList word)), 0)
  else
    let marks := word.takeWhile (· = '!')
    let (reading, taken) := readBare (word.dropWhile (· = '!')) following
    (reading.bind (Entry.negated marks.length), taken)

end Operand

end Verdict

import Verdict.Evaluation.Basic
import Verdict.Source.Assembly

namespace Verdict

-- Why a source has no truth value in a context.
inductive Failure
  | parse (error : ParseError)
  | evaluation (error : EvalError)

def Failure.message : Failure → String
  | .parse error => error.message
  | .evaluation error => error.message

-- A source that has been parsed once, with the context that it is evaluated in. A source without
-- tokens has no formula.
structure Expression where
  formula : Option Formula
  context : Context

namespace Expression

def compile (source : String) : Except ParseError Expression := do
  return ⟨← Formula.parse source, .empty⟩

-- Without a formula an expression is false in every context.
def evaluateWith (expression : Expression) (context : Context) : Except EvalError Bool :=
  match expression.formula with
  | some formula => formula.isTrue context
  | none => .ok false

def evaluate (expression : Expression) : Except EvalError Bool :=
  expression.evaluateWith expression.context

def render (expression : Expression) : String :=
  match expression.formula with
  | some formula => formula.render
  | none => ""

end Expression

-- The truth value of a source in a context.
def evaluate (source : String) (context : Context) : Except Failure Bool := do
  let expression ← (Expression.compile source).mapError .parse
  (expression.evaluateWith context).mapError .evaluation

end Verdict

import Verdict.Expression

namespace Verdict

-- What can be asked of an expression, or done to it and its context.
inductive Request
  | evaluate
  | evaluateWith (context : Context)
  | compile (source : String)
  | setContext (context : Context)
  | collect (pairs : List (String × HostValue))
  | extend (pairs : List (String × HostValue))
  | clear
  | insert (name : String) (value : HostValue)
  | remove (name : String)
  | get (name : String)
  | contains (name : String)
  | size
  | bindings
  | sameContext (context : Context)
  | show

inductive Answer
  | truth (value : Bool)
  | compiled (text : String)
  | size (count : Nat) (isEmpty : Bool)
  | replaced (size : Nat)
  | bound (value : Option HostValue)
  | contained (value : Bool)
  | bindings (text : String)
  | same (value : Bool)
  | shown (text : String) (formula : Option Formula)

namespace Expression

-- Replaces the context and answers how many names the new one binds.
def withContext (expression : Expression) (context : Context) : Answer × Expression :=
  (.replaced context.size, { expression with context })

-- The answer to a request and the expression after it. A request that fails leaves the expression
-- as it was.
def respond (expression : Expression) : Request → Except Failure (Answer × Expression)
  | .evaluate => do
    let value ← expression.evaluate.mapError .evaluation
    return (.truth value, expression)
  | .evaluateWith context => do
    let value ← (expression.evaluateWith context).mapError .evaluation
    return (.truth value, expression)
  | .compile source => do
    let compiled ← (compile source).mapError .parse
    return (.compiled compiled.render, { compiled with context := expression.context })
  | .setContext context => .ok (expression.withContext context)
  | .collect pairs => .ok (expression.withContext (.ofList pairs))
  | .extend pairs => .ok (expression.withContext (expression.context.insertMany pairs))
  | .clear => .ok (expression.withContext .empty)
  | .insert name value =>
    .ok (.bound (expression.context.get? name),
      { expression with context := expression.context.insert name value })
  | .remove name =>
    .ok (.bound (expression.context.get? name),
      { expression with context := expression.context.erase name })
  | .get name => .ok (.bound (expression.context.get? name), expression)
  | .contains name => .ok (.contained (expression.context.contains name), expression)
  | .size => .ok (.size expression.context.size expression.context.isEmpty, expression)
  | .bindings => .ok (.bindings expression.context.render, expression)
  | .sameContext context => .ok (.same (expression.context.same context), expression)
  | .show => .ok (.shown expression.render expression.formula, expression)

end Expression

end Verdict

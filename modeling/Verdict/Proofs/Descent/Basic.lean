import Mathlib.Logic.Function.Iterate
import Verdict.Source.Assembly

namespace Verdict

-- A call for one token that is in progress. The call for an operator makes further calls, for the
-- tokens of its right operand.
inductive Rule
  | operand
  | operator (frame : Frame)

-- Where a parser is: between two calls at the top, at the start of a call, before the exclamation
-- marks of an operand, at the end of a call, behind it, or at the end of the source.
inductive Phase
  | top
  | entering (token : Token)
  | negating (marks : Nat)
  | leaving (result : Except ParseError Unit)
  | returned (result : Except ParseError Unit)
  | halted (result : Except ParseError (Option Formula))

-- A parser that reads one token after the other by calls that nest: the tokens ahead, the operands
-- read so far, newest first, the calls in progress, innermost first, and the counter that bounds
-- how deeply they nest.
structure Descent where
  tokens : List Token
  stack : List Entry
  rules : List Rule
  nesting : Nat
  phase : Phase

namespace Descent

def start (tokens : List Token) : Descent :=
  ⟨tokens, [], [], 0, if tokens = [] then .halted (.ok none) else .top⟩

def advance (stack : List Entry) (rules : List Rule) (nesting : Nat) : List Token → Descent
  | token :: tokens => ⟨tokens, stack, rules, nesting, .entering token⟩
  | [] =>
    match stack with
    | [entry] => ⟨[], [], rules, nesting, .halted (.ok (some entry.formula))⟩
    | _ => ⟨[], stack.drop 1, rules, nesting, .halted (.error .invalidExpression)⟩

-- Takes the next token as the start of the right operand of an operator that has just been read.
def fetch (stack : List Entry) (rules : List Rule) (nesting : Nat) : List Token → Descent
  | token :: tokens => ⟨tokens, stack, rules, nesting, .entering token⟩
  | [] => ⟨[], stack, rules, nesting, .leaving (.error .missingRightOperand)⟩

def readWord (word : List Char) (tokens : List Token) (stack : List Entry) (rules : List Rule)
    (nesting : Nat) : Descent :=
  if Lexeme.isOperatorLike word then
    ⟨tokens, stack, rules, nesting, .leaving (.error (.unknownOperator (String.ofList word)))⟩
  else
    match Operand.readBare (word.dropWhile (· = '!')) tokens with
    | (.ok entry, taken) =>
      ⟨tokens.drop taken, entry :: stack, rules, nesting,
        .negating (word.takeWhile (· = '!')).length⟩
    | (.error error, taken) =>
      ⟨tokens.drop taken, stack, rules, nesting, .leaving (.error error)⟩

-- A call is refused before it counts.
def enter (token : Token) (tokens : List Token) (stack : List Entry) (rules : List Rule)
    (nesting : Nat) : Descent :=
  if maxDepth ≤ nesting then
    ⟨tokens, stack, rules, nesting, .returned (.error .nestingTooDeep)⟩
  else
    match token with
    | .bool value =>
      ⟨tokens, .leaf (.constant (.bool value)) :: stack, .operand :: rules, nesting + 1,
        .leaving (.ok ())⟩
    | .operator op => fetch stack (.operator (.opened op) :: rules) (nesting + 1) tokens
    | .word text => readWord text.toList tokens stack (.operand :: rules) (nesting + 1)

def negate (tokens : List Token) (rules : List Rule) (nesting : Nat) :
    Nat → List Entry → Descent
  | 0, stack => ⟨tokens, stack, rules, nesting, .leaving (.ok ())⟩
  | _ + 1, [] => ⟨tokens, [], rules, nesting, .leaving (.error .invalidExpression)⟩
  | marks + 1, entry :: stack =>
    match entry.negated (marks + 1) with
    | .ok entry => ⟨tokens, entry :: stack, rules, nesting, .leaving (.ok ())⟩
    | .error error => ⟨tokens, stack, rules, nesting, .leaving (.error error)⟩

def leave (result : Except ParseError Unit) (tokens : List Token) (stack : List Entry)
    (nesting : Nat) : List Rule → Descent
  | _ :: rules => ⟨tokens, stack, rules, nesting - 1, .returned result⟩
  | [] => ⟨tokens, stack, [], nesting, .leaving result⟩

def join (op : Operator) (left right : Entry) (tokens : List Token) (stack : List Entry)
    (rules : List Rule) (nesting : Nat) : Descent :=
  match Entry.joined op left right with
  | .ok whole => ⟨tokens, whole :: stack, rules, nesting, .leaving (.ok ())⟩
  | .error error => ⟨tokens, stack, rules, nesting, .leaving (.error error)⟩

-- Puts a right operand back on the stack and reads the next token on top of it.
def extend (op : Operator) (left right : Entry) (token : Token) (tokens : List Token)
    (stack : List Entry) (rules : List Rule) (nesting : Nat) : Descent :=
  match right.checked with
  | .ok right =>
    ⟨tokens, right :: stack, .operator (.extending op left) :: rules, nesting, .entering token⟩
  | .error error =>
    ⟨tokens, stack, .operator (.extending op left) :: rules, nesting, .leaving (.error error)⟩

-- Goes on with an operator after a call for its right operand.
def combine (frame : Frame) (tokens : List Token) (stack : List Entry) (rules : List Rule)
    (nesting : Nat) : Descent :=
  match Assembly.takeOperands frame stack with
  | .error error => ⟨tokens, [], .operator frame :: rules, nesting, .leaving (.error error)⟩
  | .ok (op, left, right, stack) =>
    if op.isLogical && !right.formula.isLogical then
      match tokens with
      | token :: tokens => extend op left right token tokens stack rules nesting
      | [] => join op left right [] stack (.operator frame :: rules) nesting
    else join op left right tokens stack (.operator frame :: rules) nesting

def resume (tokens : List Token) (stack : List Entry) (nesting : Nat) :
    List Rule → Except ParseError Unit → Descent
  | [], .ok () => ⟨tokens, stack, [], nesting, .top⟩
  | [], .error error => ⟨tokens, stack, [], nesting, .halted (.error error)⟩
  | .operator frame :: rules, .ok () => combine frame tokens stack rules nesting
  | rules, result => ⟨tokens, stack, rules, nesting, .leaving result⟩

def step (state : Descent) : Descent :=
  match state.phase with
  | .top => advance state.stack state.rules state.nesting state.tokens
  | .entering token => enter token state.tokens state.stack state.rules state.nesting
  | .negating marks => negate state.tokens state.rules state.nesting marks state.stack
  | .leaving result => leave result state.tokens state.stack state.nesting state.rules
  | .returned result => resume state.tokens state.stack state.nesting state.rules result
  | .halted _ => state

end Descent

end Verdict

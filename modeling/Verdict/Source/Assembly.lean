import Verdict.Source.Segment

namespace Verdict

-- An operator whose right operand is being read: at first its left operand is still on the stack,
-- later, when a right operand is being extended, it has been taken from there.
inductive Frame
  | opened (op : Operator)
  | extending (op : Operator) (left : Entry)

-- The state between two segments: the operands read so far, newest first, the operators that wait,
-- innermost first, and how many these are.
structure Assembly where
  stack : List Entry
  frames : List Frame
  nesting : Nat

namespace Assembly

def start : Assembly := ⟨[], [], 0⟩

-- Takes the operands of a waiting operator from the stack: its name, left and right operand, and
-- what remains.
def takeOperands : Frame → List Entry →
    Except ParseError (Operator × Entry × Entry × List Entry)
  | .opened op, right :: left :: stack => .ok (op, left, right, stack)
  | .extending op left, right :: stack => .ok (op, left, right, stack)
  | _, _ => .error .invalidExpression

-- Hands a new operand on top of the stack to the operators that wait for it. A logical operator
-- whose right operand is not logical waits on while segments remain, so that `a && b == c` compares
-- before it joins.
def settle (more : Bool) : List Frame → List Entry → Nat → Except ParseError Assembly
  | [], stack, nesting => .ok ⟨stack, [], nesting⟩
  | frame :: frames, stack, nesting => do
    let (op, left, right, stack) ← takeOperands frame stack
    if op.isLogical && !right.formula.isLogical && more then
      .ok ⟨right :: stack, .extending op left :: frames, nesting⟩
    else
      let whole ← Entry.joined op left right
      settle more frames (whole :: stack) (nesting - 1)

-- Reads one segment; `more` says whether others follow it.
def step (more : Bool) (state : Assembly) (segment : Segment) : Except ParseError Assembly :=
  if maxDepth ≤ state.nesting then .error .nestingTooDeep
  else
    match segment with
    | .operand reading => do settle more state.frames ((← reading) :: state.stack) state.nesting
    | .operator op => .ok ⟨state.stack, .opened op :: state.frames, state.nesting + 1⟩

def run (state : Assembly) : List Segment → Except ParseError Assembly
  | [] => .ok state
  | segment :: rest => do run (← state.step (!rest.isEmpty) segment) rest

-- At the end no operator may wait, and exactly one formula may be left.
def finish : Assembly → Except ParseError Formula
  | ⟨_, _ :: _, _⟩ => .error .missingRightOperand
  | ⟨[entry], [], _⟩ => .ok entry.formula
  | ⟨_, [], _⟩ => .error .invalidExpression

end Assembly

namespace Formula

def ofSegments (segments : List Segment) : Except ParseError Formula := do
  (← Assembly.start.run segments).finish

-- The formula that tokens denote. Without any token there is none.
def ofTokens (tokens : List Token) : Except ParseError (Option Formula) :=
  if tokens = [] then .ok none else (ofSegments (Segment.ofTokens tokens)).map some

def parse (source : String) : Except ParseError (Option Formula) := do
  ofTokens (← Token.scan source)

end Formula

end Verdict

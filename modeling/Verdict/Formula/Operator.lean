namespace Verdict

-- The operators that stand between two operands.
inductive Operator
  | and
  | or
  | equal
  | notEqual
  | greater
  | greaterEqual
  | less
  | lessEqual
deriving DecidableEq

namespace Operator

def all : List Operator :=
  [.and, .or, .equal, .notEqual, .greater, .greaterEqual, .less, .lessEqual]

def symbol : Operator → String
  | .and => "&&"
  | .or => "||"
  | .equal => "=="
  | .notEqual => "!="
  | .greater => ">"
  | .greaterEqual => ">="
  | .less => "<"
  | .lessEqual => "<="

def ofSymbol? (symbol : String) : Option Operator := all.find? (·.symbol = symbol)

theorem ofSymbol?_symbol (op : Operator) : ofSymbol? op.symbol = some op := by
  cases op <;> decide

theorem symbol_of_ofSymbol? {symbol : String} {op : Operator} (h : ofSymbol? symbol = some op) :
    op.symbol = symbol := by
  have hfound := List.find?_some h
  simpa using hfound

-- The logical operators take booleans. All others compare values of any kind.
def isLogical : Operator → Bool
  | .and | .or => true
  | _ => false

end Operator

end Verdict

import Std.Data.TreeMap.Basic
import Verdict.Number.Binary64

namespace Verdict

-- A number of the host: a whole number kept exactly, or a finite binary64 value.
inductive HostNumber
  | integer (value : Int)
  | float (value : Binary64.Finite)
deriving DecidableEq

-- What a host binds to a name. The members of an object are in ascending order of their keys.
inductive HostValue
  | null
  | bool (value : Bool)
  | number (value : HostNumber)
  | string (text : String)
  | array (items : List HostValue)
  | object (members : List (String × HostValue))

-- Two floats are the same number if they have the same place in the order, so the two zeros are.
-- An integer is never the same as a float.
def HostNumber.same : HostNumber → HostNumber → Bool
  | .integer left, .integer right => left = right
  | .float left, .float right => (Binary64.finite left).place = (Binary64.finite right).place
  | _, _ => false

namespace HostValue

mutual

def same : HostValue → HostValue → Bool
  | .null, .null => true
  | .bool left, .bool right => left = right
  | .number left, .number right => left.same right
  | .string left, .string right => left = right
  | .array left, .array right => sameItems left right
  | .object left, .object right => sameMembers left right
  | _, _ => false

def sameItems : List HostValue → List HostValue → Bool
  | [], [] => true
  | left :: lefts, right :: rights => left.same right && sameItems lefts rights
  | _, _ => false

def sameMembers : List (String × HostValue) → List (String × HostValue) → Bool
  | [], [] => true
  | (leftKey, left) :: lefts, (rightKey, right) :: rights =>
    leftKey = rightKey && left.same right && sameMembers lefts rights
  | _, _ => false

end

-- An object from its members in any order. Of two with one key the later counts.
def ofMembers (members : List (String × HostValue)) : HostValue :=
  .object (Std.TreeMap.ofList members compare).toList

end HostValue

end Verdict

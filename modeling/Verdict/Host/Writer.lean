import Verdict.Host.Quoted
import Verdict.Host.Value
import Verdict.Number.Layout
import Verdict.Number.Shortest

namespace Verdict

-- Floats are written with as few digits as their value allows, and without an exponent from
-- `0.00001` to below `10 ^ 16`.
def HostNumber.positionalRange : PositionalRange := ⟨-5, 16⟩

def HostNumber.render : HostNumber → List Char
  | .integer value =>
    if value < 0 then '-' :: Nat.toDigits 10 value.natAbs else Nat.toDigits 10 value.natAbs
  | .float value => value.shortest.layout positionalRange

namespace HostValue

mutual

def chars : HostValue → List Char
  | .null => ['n', 'u', 'l', 'l']
  | .bool true => ['t', 'r', 'u', 'e']
  | .bool false => ['f', 'a', 'l', 's', 'e']
  | .number value => value.render
  | .string text => Quoted.encode text.toList
  | .array items => '[' :: (itemChars items ++ [']'])
  | .object members => '{' :: (memberChars members ++ ['}'])

def itemChars : List HostValue → List Char
  | [] => []
  | [item] => chars item
  | item :: items => chars item ++ ',' :: itemChars items

def memberChars : List (String × HostValue) → List Char
  | [] => []
  | [(key, value)] => Quoted.encode key.toList ++ ':' :: chars value
  | (key, value) :: members =>
    Quoted.encode key.toList ++ ':' :: (chars value ++ ',' :: memberChars members)

end

-- The text of a value without any space between its parts.
def render (value : HostValue) : String := String.ofList (chars value)

end HostValue

end Verdict

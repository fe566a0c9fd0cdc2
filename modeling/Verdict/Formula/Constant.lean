namespace Verdict

-- The values that formulas hold and evaluate to. A number keeps the text that it was written in.
inductive Constant
  | bool (value : Bool)
  | nil
  | number (text : String)
  | string (text : String)
  | array (items : List Constant)

namespace Constant

mutual

def decEq : (left right : Constant) → Decidable (left = right)
  | .bool left, .bool right => decidable_of_iff (left = right) (by simp)
  | .nil, .nil => .isTrue rfl
  | .number left, .number right => decidable_of_iff (left = right) (by simp)
  | .string left, .string right => decidable_of_iff (left = right) (by simp)
  | .array left, .array right =>
    match decEqItems left right with
    | .isTrue h => .isTrue (by rw [h])
    | .isFalse h => .isFalse (by simpa using h)
  | .bool _, .nil | .bool _, .number _ | .bool _, .string _ | .bool _, .array _
  | .nil, .bool _ | .nil, .number _ | .nil, .string _ | .nil, .array _
  | .number _, .bool _ | .number _, .nil | .number _, .string _ | .number _, .array _
  | .string _, .bool _ | .string _, .nil | .string _, .number _ | .string _, .array _
  | .array _, .bool _ | .array _, .nil | .array _, .number _ | .array _, .string _ =>
    .isFalse (by simp)

def decEqItems : (left right : List Constant) → Decidable (left = right)
  | [], [] => .isTrue rfl
  | [], _ :: _ | _ :: _, [] => .isFalse (by simp)
  | left :: lefts, right :: rights =>
    match decEq left right, decEqItems lefts rights with
    | .isTrue h, .isTrue hs => .isTrue (by rw [h, hs])
    | .isFalse h, _ => .isFalse (by simp [h])
    | _, .isFalse hs => .isFalse (by simp [hs])

end

instance : DecidableEq Constant := decEq

def isLogical : Constant → Bool
  | .bool _ => true
  | _ => false

mutual

def chars : Constant → List Char
  | .bool true => ['t', 'r', 'u', 'e']
  | .bool false => ['f', 'a', 'l', 's', 'e']
  | .nil => ['n', 'i', 'l']
  | .number text => text.toList
  | .string text => '\'' :: (text.toList ++ ['\''])
  | .array items => '[' :: (itemChars items ++ [']'])

def itemChars : List Constant → List Char
  | [] => []
  | [item] => chars item
  | item :: items => chars item ++ ',' :: itemChars items

end

-- The text of a constant. Strings stand between single quotes, and nothing in them is escaped.
def render (constant : Constant) : String := String.ofList (chars constant)

end Constant

end Verdict

namespace Verdict

-- The exact number `coefficient * 10 ^ exponent`, negated if `negative`.
structure Decimal where
  negative : Bool
  coefficient : Nat
  exponent : Int
deriving DecidableEq

-- What the text of a number denotes before any rounding.
inductive Numeral
  | decimal (value : Decimal)
  | infinity (negative : Bool)
  | nan
deriving DecidableEq

namespace Numeral

def digitValue (c : Char) : Nat := c.toNat - '0'.toNat

def ofDigits (digits : List Char) : Nat :=
  digits.foldl (fun value digit => 10 * value + digitValue digit) 0

-- Whether a minus sign stands in front, and the text after the sign if there is one.
def takeSign : List Char → Bool × List Char
  | '-' :: rest => (true, rest)
  | '+' :: rest => (false, rest)
  | text => (false, text)

-- Digits with an optional sign.
def readInt? (text : List Char) : Option Int :=
  let (negative, digits) := takeSign text
  if digits ≠ [] ∧ digits.all Char.isDigit then
    some (if negative then -(ofDigits digits : Int) else ofDigits digits)
  else none

-- What may follow the digits: nothing, or an exponent.
def readExponent? : List Char → Option Int
  | [] => some 0
  | c :: rest => if c = 'e' ∨ c = 'E' then readInt? rest else none

-- The digits after a point, and what follows them. Without a point there are none.
def takeFraction : List Char → List Char × List Char
  | '.' :: rest => (rest.takeWhile Char.isDigit, rest.dropWhile Char.isDigit)
  | text => ([], text)

-- Digits with an optional point among them, and an optional exponent. One digit on either side of
-- the point is enough.
def readDecimal? (negative : Bool) (text : List Char) : Option Decimal :=
  let whole := text.takeWhile Char.isDigit
  let (fraction, rest) := takeFraction (text.dropWhile Char.isDigit)
  if whole ++ fraction = [] then none
  else (readExponent? rest).map fun exponent =>
    ⟨negative, ofDigits (whole ++ fraction), exponent - fraction.length⟩

-- An optional sign, then a decimal number or one of three names in any case.
def read? (text : List Char) : Option Numeral :=
  let (negative, body) := takeSign text
  let name := String.ofList (body.map Char.toLower)
  if name = "inf" ∨ name = "infinity" then some (.infinity negative)
  else if name = "nan" then some .nan
  else (readDecimal? negative body).map .decimal

end Numeral

end Verdict

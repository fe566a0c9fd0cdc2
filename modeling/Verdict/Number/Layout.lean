import Verdict.Number.Numeral

namespace Verdict

-- Which numbers are written without an exponent: those whose first digit has a place value of at
-- least `10 ^ lowest` and less than `10 ^ limit`.
structure PositionalRange where
  lowest : Int
  limit : Int

namespace Decimal

def digits (number : Decimal) : List Char := Nat.toDigits 10 number.coefficient

-- The exponent of the first digit's place value.
def leadingExponent (number : Decimal) : Int := number.exponent + number.digits.length - 1

-- The digits less the zeros at their end, of which one stays if there is nothing else.
def significantDigits (number : Decimal) : List Char :=
  match (number.digits.reverse.dropWhile (· = '0')).reverse with
  | [] => ['0']
  | digits => digits

-- Digits around a point after the first `whole` of them, with a zero on a side that has none.
def pointed (digits : List Char) (whole : Nat) : List Char :=
  let front := (digits ++ List.replicate (whole - digits.length) '0').take whole
  let back := digits.drop whole
  (if front = [] then ['0'] else front) ++ '.' :: (if back = [] then ['0'] else back)

def positional (digits : List Char) : Int → List Char
  | .ofNat exponent => pointed digits (exponent + 1)
  | .negSucc exponent => pointed (List.replicate exponent '0' ++ digits) 0

def scientific (digits : List Char) (exponent : Int) : List Char :=
  let mantissa := if digits.length = 1 then digits else pointed digits 1
  let sign := if exponent < 0 then '-' else '+'
  mantissa ++ 'e' :: sign :: Nat.toDigits 10 exponent.natAbs

-- The text of a number. A positional number has a digit on both sides of its point; in front of an
-- exponent, which always has a sign, a single digit stands without a point.
def layout (range : PositionalRange) (number : Decimal) : List Char :=
  let digits := number.significantDigits
  let exponent := if number.coefficient = 0 then 0 else number.leadingExponent
  let body := if range.lowest ≤ exponent ∧ exponent < range.limit then positional digits exponent
    else scientific digits exponent
  if number.negative then '-' :: body else body

end Decimal

end Verdict

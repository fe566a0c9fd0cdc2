import Verdict.Host.Value

namespace Verdict

-- The written form of a host number: digits, then perhaps digits after a point and an exponent.
structure NumberLiteral where
  negative : Bool
  whole : List Char
  fraction : List Char
  exponent : Option Int

namespace NumberLiteral

-- One digit or more, and the text after them.
def takeDigits? (text : List Char) : Option (List Char × List Char) :=
  if text.takeWhile Char.isDigit = [] then none
  else some (text.takeWhile Char.isDigit, text.dropWhile Char.isDigit)

-- A zero stands alone in front of the point; no other number starts with one.
def takeWhole? : List Char → Option (List Char × List Char)
  | '0' :: rest => some (['0'], rest)
  | text => takeDigits? text

def takeFraction? : List Char → Option (List Char × List Char)
  | '.' :: rest => takeDigits? rest
  | text => some ([], text)

def takeExponent? : List Char → Option (Option Int × List Char)
  | [] => some (none, [])
  | c :: rest =>
    if c = 'e' ∨ c = 'E' then do
      let (negative, rest) := Numeral.takeSign rest
      let (digits, rest) ← takeDigits? rest
      let value : Int := Numeral.ofDigits digits
      return (some (if negative then -value else value), rest)
    else some (none, c :: rest)

-- The literal at the start of a text, and the text after it.
def take? (text : List Char) : Option (NumberLiteral × List Char) := do
  let (negative, text) := match text with
    | '-' :: rest => (true, rest)
    | _ => (false, text)
  let (whole, text) ← takeWhole? text
  let (fraction, text) ← takeFraction? text
  let (exponent, text) ← takeExponent? text
  return (⟨negative, whole, fraction, exponent⟩, text)

-- The first number past a word of 64 bits.
def wordLimit : Nat := 0x10000000000000000

-- Appends digits to a number for as long as it fits a word, and gives back the digits that are
-- left.
def gather (value : Nat) : List Char → Nat × List Char
  | [] => (value, [])
  | digit :: digits =>
    let next := 10 * value + Numeral.digitValue digit
    if next < wordLimit then gather next digits else (value, digit :: digits)

-- The literal as an integer that fits a word and the power of ten by which it counts. Digits in
-- front of the point that no longer fit count as zeros, those behind it not at all.
def parts (literal : NumberLiteral) : Nat × Int :=
  let (value, left) := gather 0 literal.whole
  let (value, dropped) := gather value literal.fraction
  let kept := literal.fraction.length - dropped.length
  (value, literal.exponent.getD 0 + left.length - kept)

-- The rank of `value * 10 ^ exponent`. The integer and the power are rounded, and the product or
-- quotient of the two is rounded once more. Below `10 ^ -308` a quotient is taken twice.
def scaledRank (value : Nat) : Int → Nat
  | .ofNat exponent =>
    if value = 0 then 0
    else if 308 < exponent then Binary64.infiniteRank
    else Binary64.productRank (rank value) (rank (Nat.pow 10 exponent))
  | .negSucc exponent =>
    if exponent < 308 then Binary64.quotientRank (rank value) (rank (Nat.pow 10 (exponent + 1)))
    else if exponent < 616 then
      Binary64.quotientRank (Binary64.quotientRank (rank value) (rank (Nat.pow 10 308)))
        (rank (Nat.pow 10 (exponent + 1 - 308)))
    else 0
where
  rank (n : Nat) : Nat := Binary64.nearestRank n 1

def float? (literal : NumberLiteral) : Option HostNumber :=
  let (value, exponent) := literal.parts
  (Binary64.Finite.ofRank? literal.negative (scaledRank value exponent)).map .float

-- A whole number from `-2 ^ 63` to below `2 ^ 64` without point and exponent is an integer. All
-- others, and minus zero, are floats, and there is none past the largest finite value.
def number? (literal : NumberLiteral) : Option HostNumber :=
  let whole := Numeral.ofDigits literal.whole
  if literal.fraction = [] ∧ literal.exponent = none then
    if literal.negative then
      if 0 < whole ∧ 2 * whole ≤ wordLimit then some (.integer (-whole)) else literal.float?
    else if whole < wordLimit then some (.integer whole)
    else literal.float?
  else literal.float?

end NumberLiteral

end Verdict

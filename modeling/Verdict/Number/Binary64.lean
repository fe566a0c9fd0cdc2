import Verdict.Number.Numeral

namespace Verdict

namespace Binary64

-- The magnitudes of binary64 have consecutive ranks in ascending order, and zero has rank 0. The
-- finite ones come before this rank, which is that of infinity.
def infiniteRank : Nat := 0x7FF0000000000000

-- How many ranks there are from one power of two to the next, or `2 ^ 52`.
def binade : Nat := 0x10000000000000

-- A finite value. Its rank is also the lower 63 bits of its encoding.
structure Finite where
  negative : Bool
  rank : Nat
  rank_lt : rank < infiniteRank
deriving DecidableEq

-- The unit in the last place, as the exponent of a power of two in multiples of `2 ^ -1074`.
def unit (rank : Nat) : Nat := rank / binade - 1

-- The magnitude of a rank in units in the last place.
def significand (rank : Nat) : Nat := rank - unit rank * binade

-- The magnitude of a rank in multiples of `2 ^ -1074`.
def scaled (rank : Nat) : Nat := significand rank * Nat.pow 2 (unit rank)

-- The integer nearest a quotient, the even one if two are equally near.
def roundHalfEven (num den : Nat) : Nat :=
  let quotient := num / den
  let twice := 2 * (num % den)
  if twice < den then quotient
  else if den < twice then quotient + 1
  else quotient + quotient % 2

-- The rank of the magnitude nearest a quotient. Ranks from `infiniteRank` on are overflows.
def nearestRank (num den : Nat) : Nat :=
  let multiple := num * Nat.pow 2 1074
  let unit := (multiple / den).log2 - 52
  roundHalfEven multiple (den * Nat.pow 2 unit) + unit * binade

-- The rank nearest `coefficient * 10 ^ exponent`. No finite value reaches `10 ^ 309`, and below
-- half of the least positive value all is zero; both are seen without forming the power.
def decimalRank (coefficient : Nat) : Int → Nat
  | .ofNat exponent =>
    if coefficient = 0 then 0
    else if 309 ≤ exponent then infiniteRank
    else nearestRank (coefficient * Nat.pow 10 exponent) 1
  | .negSucc exponent =>
    if coefficient.log2 + 1076 ≤ 3 * (exponent + 1) then 0
    else nearestRank coefficient (Nat.pow 10 (exponent + 1))

def productRank (left right : Nat) : Nat :=
  nearestRank (scaled left * scaled right) (Nat.pow 2 2148)

def quotientRank (left right : Nat) : Nat := nearestRank (scaled left) (scaled right)

-- The finite value of a rank, unless the rank is an overflow.
def Finite.ofRank? (negative : Bool) (rank : Nat) : Option Finite :=
  if h : rank < infiniteRank then some ⟨negative, rank, h⟩ else none

end Binary64

-- A binary64 value. Which of its encodings a NaN has is not kept.
inductive Binary64
  | finite (value : Binary64.Finite)
  | infinity (negative : Bool)
  | nan
deriving DecidableEq

namespace Binary64

-- The place of a value in the order of all values. The two zeros share one place, and NaN comes
-- after infinity.
def place : Binary64 → Int
  | .finite value => if value.negative then -(value.rank : Int) else value.rank
  | .infinity negative => if negative then -(infiniteRank : Int) else infiniteRank
  | .nan => infiniteRank + 1

def isFinite : Binary64 → Bool
  | .finite _ => true
  | _ => false

-- The nearest value to a decimal number.
def ofDecimal (number : Decimal) : Binary64 :=
  match Finite.ofRank? number.negative (decimalRank number.coefficient number.exponent) with
  | some value => .finite value
  | none => .infinity number.negative

def ofNumeral : Numeral → Binary64
  | .decimal number => ofDecimal number
  | .infinity negative => .infinity negative
  | .nan => .nan

-- The value nearest the number that a text denotes, however many digits it and its exponent have.
def read? (text : List Char) : Option Binary64 := (Numeral.read? text).map ofNumeral

-- The 64 bits of a value other than NaN, which has many encodings.
def encoding? : Binary64 → Option Nat
  | .finite value => some (signBit value.negative + value.rank)
  | .infinity negative => some (signBit negative + infiniteRank)
  | .nan => none
where
  signBit (negative : Bool) : Nat := if negative then 0x8000000000000000 else 0

end Binary64

end Verdict

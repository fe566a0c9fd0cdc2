import Verdict.Number.Binary64

namespace Verdict.Binary64

-- The magnitude of a rank in multiples of `10 ^ -1074`, which is a whole number.
def decimalExpansion (rank : Nat) : Nat := scaled rank * Nat.pow 5 1074

-- Of the two multiples of `10 ^ (places - 1074)` around a magnitude, the one that is read back as
-- it. Of two such the nearer is taken, or the even one if both are equally near.
def nearestReadBack? (rank places : Nat) : Option Nat :=
  let step := Nat.pow 10 places
  let below := decimalExpansion rank / step
  let readsBack := fun multiple => decimalRank multiple (places - 1074) = rank
  if readsBack below then
    if readsBack (below + 1) then some (roundHalfEven (decimalExpansion rank) step)
    else some below
  else if readsBack (below + 1) then some (below + 1)
  else none

-- The decimal number with the fewest digits that is read back as a value, nearest to it among
-- those. Seventeen digits are always enough.
def Finite.shortest (value : Finite) : Decimal :=
  let length := (Nat.toDigits 10 (decimalExpansion value.rank)).length
  let attempt := fun digits =>
    let places := length - digits
    (nearestReadBack? value.rank places).map fun multiple =>
      ⟨value.negative, multiple, places - 1074⟩
  match (List.range' 1 17).findSome? attempt with
  | some number => number
  | none => ⟨value.negative, decimalExpansion value.rank, -1074⟩

end Verdict.Binary64

import Mathlib.Order.Monotone.Basic
import Mathlib.Tactic.Ring
import Verdict.Number.Binary64

namespace Verdict.Binary64

theorem unit_of_lt {rank : Nat} (h : rank < 2 * binade) : unit rank = 0 := by
  simp only [unit, binade] at h ⊢
  omega

theorem scaled_of_lt {rank : Nat} (h : rank < 2 * binade) : scaled rank = rank := by
  rw [scaled, significand, unit_of_lt h, Nat.zero_mul, Nat.sub_zero]
  exact Nat.mul_one rank

-- The next magnitude is one unit in the last place away.
theorem scaled_succ (rank : Nat) : scaled (rank + 1) = scaled rank + Nat.pow 2 (unit rank) := by
  by_cases hsmall : rank + 1 < 2 * binade
  · rw [scaled_of_lt hsmall, scaled_of_lt (by omega), unit_of_lt (by omega)]
  by_cases hsame : (rank + 1) / binade = rank / binade
  · have hunit : unit (rank + 1) = unit rank := by rw [unit, unit, hsame]
    have hsignificand : significand (rank + 1) = significand rank + 1 := by
      simp only [significand, hunit]
      simp only [unit, binade]
      omega
    rw [scaled, scaled, hunit, hsignificand]
    exact Nat.succ_mul _ _
  · -- the first magnitude of a binade, whose unit is twice that of the one before
    have hunit : unit (rank + 1) = unit rank + 1 := by
      simp only [unit, binade] at hsmall hsame ⊢
      omega
    have hsignificand : significand (rank + 1) = binade ∧ significand rank + 1 = 2 * binade := by
      simp only [significand, unit, binade] at hsmall hsame ⊢
      omega
    have hpower : Nat.pow 2 (unit rank + 1) = Nat.pow 2 (unit rank) * 2 := Nat.pow_succ ..
    calc scaled (rank + 1) = (significand rank + 1) * Nat.pow 2 (unit rank) := by
          rw [scaled, hunit, hsignificand.1, hsignificand.2, hpower]
          ring
      _ = scaled rank + Nat.pow 2 (unit rank) := Nat.succ_mul _ _

theorem scaled_strictMono : StrictMono scaled :=
  strictMono_nat_of_lt_succ fun rank => by
    rw [scaled_succ]
    exact Nat.lt_add_of_pos_right (Nat.two_pow_pos _)

-- A finite value in multiples of `2 ^ -1074`, of which it is a whole number.
def Finite.exact (value : Finite) : Int :=
  if value.negative then -(scaled value.rank : Int) else scaled value.rank

-- Which of two values is the less: the lesser number among the finite ones, which lie between the
-- two infinities, and anything but NaN next to NaN.
def Precedes : Binary64 → Binary64 → Prop
  | .nan, _ => False
  | _, .nan => True
  | .finite left, .finite right => left.exact < right.exact
  | .infinity left, .infinity right => left = true ∧ right = false
  | .infinity left, .finite _ => left = true
  | .finite _, .infinity right => right = false

theorem place_infinity (negative : Bool) :
    (infinity negative).place = if negative then -(infiniteRank : Int) else infiniteRank := rfl

theorem place_nan : nan.place = infiniteRank + 1 := rfl

theorem Finite.place_lt_place_iff (left right : Finite) :
    (finite left).place < (finite right).place ↔ left.exact < right.exact := by
  have hzero : scaled 0 = 0 := rfl
  have hlt := scaled_strictMono.lt_iff_lt (a := left.rank) (b := right.rank)
  have hgt := scaled_strictMono.lt_iff_lt (a := right.rank) (b := left.rank)
  have hleft := scaled_strictMono.lt_iff_lt (a := 0) (b := left.rank)
  have hright := scaled_strictMono.lt_iff_lt (a := 0) (b := right.rank)
  simp only [place, exact]
  split <;> split <;> omega

-- The places of the infinities are around those of all finite values.
theorem Finite.place_bounds (value : Finite) :
    -(infiniteRank : Int) < (finite value).place ∧ (finite value).place < infiniteRank := by
  have hrank := value.rank_lt
  simp only [place]
  split <;> omega

theorem place_infinity_lt_nan (negative : Bool) : (infinity negative).place < nan.place := by
  rw [place_infinity, place_nan]
  split <;> omega

theorem Finite.place_lt_nan (value : Finite) : (finite value).place < nan.place := by
  have hbounds := value.place_bounds
  rw [place_nan]
  omega

-- Places are in the order of the values.
theorem place_lt_place_iff {left right : Binary64} :
    left.place < right.place ↔ left.Precedes right := by
  have hinfinite : (0 : Int) < infiniteRank := by decide
  cases left with
  | finite left =>
      have hleft := left.place_bounds
      cases right with
      | finite right => exact left.place_lt_place_iff right
      | infinity negative =>
          cases negative with
          | false => exact iff_of_true hleft.2 rfl
          | true => exact iff_of_false (Int.not_lt.mpr hleft.1.le) Bool.noConfusion
      | nan => exact iff_of_true left.place_lt_nan trivial
  | infinity negative =>
      cases right with
      | finite right =>
          have hright := right.place_bounds
          cases negative with
          | false => exact iff_of_false (Int.not_lt.mpr hright.2.le) Bool.noConfusion
          | true => exact iff_of_true hright.1 rfl
      | infinity other =>
          simp only [place_infinity, Precedes]
          cases negative <;> cases other <;> simp
          omega
      | nan => exact iff_of_true (place_infinity_lt_nan negative) trivial
  | nan =>
      refine iff_of_false (Int.not_lt.mpr ?_) id
      cases right with
      | finite right => exact right.place_lt_nan.le
      | infinity negative => exact (place_infinity_lt_nan negative).le
      | nan => exact Int.le_refl _

end Verdict.Binary64

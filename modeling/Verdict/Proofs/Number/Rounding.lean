import Mathlib.Algebra.Order.Field.Rat
import Mathlib.Algebra.Order.Field.Power
import Mathlib.Tactic.Linarith
import Mathlib.Tactic.NormNum
import Mathlib.Tactic.Positivity
import Verdict.Proofs.Number.Order

namespace Verdict

-- The exact number without its sign.
def Decimal.magnitude (number : Decimal) : ℚ := number.coefficient * 10 ^ number.exponent

namespace Binary64

-- A quotient is rounded beyond an integer if it is past the middle between that and the next one.
-- From the middle itself, only an odd integer is left.
theorem lt_roundHalfEven_iff {num den : Nat} (hden : 0 < den) (bound : Nat) :
    bound < roundHalfEven num den ↔
      (2 * bound + 1) * den < 2 * num ∨ (2 * bound + 1) * den = 2 * num ∧ bound % 2 = 1 := by
  have hsum : den * (num / den) + num % den = num := Nat.div_add_mod num den
  have hmod : num % den < den := Nat.mod_lt num hden
  have hmiddle : (2 * bound + 1) * den = 2 * (den * bound) + den := by ring
  rw [hmiddle]
  simp only [roundHalfEven]
  generalize num / den = quotient at *
  generalize num % den = rest at *
  rcases lt_trichotomy bound quotient with hlt | rfl | hlt
  · have hnext : den * bound + den ≤ den * quotient := Nat.mul_le_mul_left den hlt
    refine iff_of_true ?_ (.inl (by omega))
    split
    · exact hlt
    split
    · omega
    · omega
  · split
    · omega
    split
    · omega
    · omega
  · have hnext : den * quotient + den ≤ den * bound := Nat.mul_le_mul_left den hlt
    refine iff_of_false ?_ (by omega)
    split
    · omega
    split
    · omega
    · omega

theorem le_roundHalfEven {num den bound : Nat} (hden : 0 < den) (h : bound * den ≤ num) :
    bound ≤ roundHalfEven num den := by
  cases bound with
  | zero => exact Nat.zero_le _
  | succ below =>
      refine (lt_roundHalfEven_iff hden below).mpr (.inl ?_)
      calc (2 * below + 1) * den < (2 * below + 2) * den :=
            Nat.mul_lt_mul_of_pos_right (Nat.lt_succ_self _) hden
        _ = 2 * ((below + 1) * den) := by ring
        _ ≤ 2 * num := Nat.mul_le_mul_left 2 h

theorem roundHalfEven_le {num den bound : Nat} (h : num ≤ bound * den) (hden : 0 < den) :
    roundHalfEven num den ≤ bound := by
  refine Nat.le_of_not_lt fun hlt => ?_
  have hmiddle : (2 * bound + 1) * den = 2 * (bound * den) + den := by ring
  have hpast := (lt_roundHalfEven_iff hden bound).mp hlt
  omega

section

variable {exponent place rank : Nat}

-- The magnitudes from one power of two to the next are the multiples of one unit. The least unit
-- goes on down to zero.
theorem scaled_add (hnormal : exponent = 0 ∨ binade ≤ place) (hplace : place ≤ 2 * binade) :
    scaled (exponent * binade + place) = place * 2 ^ exponent := by
  rcases Nat.lt_or_eq_of_le hplace with hlt | rfl
  · have hunit : unit (exponent * binade + place) = exponent := by
      rw [unit, Nat.mul_comm, Nat.mul_add_div (by decide)]
      simp only [binade] at *
      omega
    rw [scaled, significand, hunit, Nat.add_sub_cancel_left]
    rfl
  · -- the least magnitude with the next unit
    have hunit : unit (exponent * binade + 2 * binade) = exponent + 1 := by
      rw [unit, ← Nat.add_mul, Nat.mul_div_cancel _ (by decide)]
      rfl
    have hsignificand : exponent * binade + 2 * binade - (exponent + 1) * binade = binade := by
      simp only [binade]
      omega
    rw [scaled, significand, hunit, hsignificand]
    change binade * 2 ^ (exponent + 1) = _
    ring

-- The sum of two neighbours is twice their middle. Magnitudes with lesser units come first.
theorem scaled_add_scaled_lt (hrank : rank < exponent * binade + binade) :
    scaled rank + scaled (rank + 1) < 2 * (binade * 2 ^ exponent) := by
  have htop : scaled (exponent * binade + binade) = binade * 2 ^ exponent :=
    scaled_add (.inr le_rfl) (by decide)
  have hlt : scaled rank < scaled (exponent * binade + binade) := scaled_strictMono hrank
  have hnext : scaled (rank + 1) ≤ scaled (exponent * binade + binade) :=
    scaled_strictMono.monotone hrank
  omega

theorem scaled_add_scaled_eq (hnormal : exponent = 0 ∨ binade ≤ place)
    (hplace : place < 2 * binade) :
    scaled (exponent * binade + place) + scaled (exponent * binade + place + 1) =
      (2 * place + 1) * 2 ^ exponent := by
  have hnext : exponent = 0 ∨ binade ≤ place + 1 :=
    hnormal.imp_right fun h => h.trans (Nat.le_add_right place 1)
  rw [scaled_add hnormal hplace.le, Nat.add_assoc (exponent * binade), scaled_add hnext hplace]
  ring

theorem le_scaled_add_scaled (hrank : exponent * binade + 2 * binade ≤ rank) :
    2 * (2 * binade * 2 ^ exponent) ≤ scaled rank + scaled (rank + 1) := by
  have htop : scaled (exponent * binade + 2 * binade) = 2 * binade * 2 ^ exponent :=
    scaled_add (.inr (by decide)) le_rfl
  have hle : scaled (exponent * binade + 2 * binade) ≤ scaled rank :=
    scaled_strictMono.monotone hrank
  have hnext : scaled rank ≤ scaled (rank + 1) := scaled_strictMono.monotone (Nat.le_succ rank)
  omega

end

-- A number of multiples of the least magnitude takes up one of the two highest binades of its unit,
-- or the lower one too if that is the least unit.
theorem multiple_bounds (multiple : Nat) {den : Nat} (hden : 0 < den) :
    multiple < 2 * binade * (den * 2 ^ ((multiple / den).log2 - 52)) ∧
      ((multiple / den).log2 - 52 = 0 ∨
        binade * (den * 2 ^ ((multiple / den).log2 - 52)) ≤ multiple) := by
  have hbinade : ∀ exponent, 2 ^ (52 + exponent) = binade * 2 ^ exponent := fun exponent => by
    rw [Nat.pow_add]
    rfl
  generalize hquotient : multiple / den = quotient
  constructor
  · have hlt : quotient < 2 * binade * 2 ^ (quotient.log2 - 52) :=
      calc quotient < 2 ^ (quotient.log2 + 1) := Nat.lt_log2_self
        _ ≤ 2 ^ (52 + (quotient.log2 - 52) + 1) := Nat.pow_le_pow_right (by decide) (by omega)
        _ = 2 * binade * 2 ^ (quotient.log2 - 52) := by rw [Nat.pow_succ, hbinade]; ring
    rw [← hquotient, Nat.div_lt_iff_lt_mul hden, hquotient] at hlt
    calc multiple < 2 * binade * 2 ^ (quotient.log2 - 52) * den := hlt
      _ = 2 * binade * (den * 2 ^ (quotient.log2 - 52)) := by ring
  · refine or_iff_not_imp_left.mpr fun hunit => ?_
    have hne : quotient ≠ 0 := by
      rintro rfl
      exact hunit (by decide)
    have hle : binade * 2 ^ (quotient.log2 - 52) ≤ quotient := by
      rw [← hbinade, show 52 + (quotient.log2 - 52) = quotient.log2 by omega]
      exact Nat.log2_self_le hne
    rw [← hquotient, Nat.le_div_iff_mul_le hden, hquotient] at hle
    calc binade * (den * 2 ^ (quotient.log2 - 52))
        = binade * 2 ^ (quotient.log2 - 52) * den := by ring
      _ ≤ multiple := hle

-- A number is rounded beyond a magnitude if it is past the middle between that and the next one.
-- From the middle itself, only a magnitude of odd rank is left.
theorem lt_rounded_iff (multiple : Nat) {den : Nat} (hden : 0 < den) (rank : Nat) :
    rank < roundHalfEven multiple (den * 2 ^ ((multiple / den).log2 - 52)) +
        ((multiple / den).log2 - 52) * binade ↔
      (scaled rank + scaled (rank + 1)) * den < 2 * multiple ∨
        (scaled rank + scaled (rank + 1)) * den = 2 * multiple ∧ rank % 2 = 1 := by
  obtain ⟨habove, hbelow⟩ := multiple_bounds multiple hden
  generalize (multiple / den).log2 - 52 = exponent at *
  have hunit : 0 < den * 2 ^ exponent := Nat.mul_pos hden (Nat.two_pow_pos exponent)
  by_cases hfirst : exponent ≠ 0 ∧ rank < exponent * binade + binade
  · -- magnitudes with lesser units
    have hle := hbelow.resolve_left hfirst.1
    have hround := le_roundHalfEven hunit hle
    refine iff_of_true (by omega) (.inl ?_)
    calc (scaled rank + scaled (rank + 1)) * den < 2 * (binade * 2 ^ exponent) * den :=
          Nat.mul_lt_mul_of_pos_right (scaled_add_scaled_lt hfirst.2) hden
      _ = 2 * (binade * (den * 2 ^ exponent)) := by ring
      _ ≤ 2 * multiple := Nat.mul_le_mul_left 2 hle
  obtain ⟨place, rfl, hnormal⟩ : ∃ place, rank = exponent * binade + place ∧
      (exponent = 0 ∨ binade ≤ place) := by
    rcases Nat.eq_zero_or_pos exponent with rfl | hpos
    · exact ⟨rank, by omega, .inl rfl⟩
    · exact ⟨rank - exponent * binade, by omega, .inr (by omega)⟩
  by_cases hplace : place < 2 * binade
  · -- magnitudes with this unit
    have hmiddle : (2 * place + 1) * 2 ^ exponent * den =
        (2 * place + 1) * (den * 2 ^ exponent) := by ring
    have hparity : (exponent * binade + place) % 2 = place % 2 := by
      simp only [binade]
      omega
    rw [scaled_add_scaled_eq hnormal hplace, hmiddle, hparity, ← lt_roundHalfEven_iff hunit]
    omega
  · -- magnitudes with greater units
    have hround := roundHalfEven_le habove.le hunit
    refine iff_of_false (by omega) ?_
    have hlt : 2 * multiple <
        (scaled (exponent * binade + place) + scaled (exponent * binade + place + 1)) * den :=
      calc 2 * multiple < 2 * (2 * binade * (den * 2 ^ exponent)) := by omega
        _ = 2 * (2 * binade * 2 ^ exponent) * den := by ring
        _ ≤ _ := Nat.mul_le_mul_right den (le_scaled_add_scaled (by omega))
    omega

-- How many times the least magnitude is contained in 1.
def scale : Nat := Nat.pow 2 1074

theorem scale_pos : 0 < scale := by decide +kernel

theorem two_mul_scale_pos : (0 : ℚ) < 2 * scale := mul_pos two_pos (Nat.cast_pos.mpr scale_pos)

theorem lt_nearestRank_iff (num : Nat) {den : Nat} (hden : 0 < den) (rank : Nat) :
    rank < nearestRank num den ↔
      (scaled rank + scaled (rank + 1)) * den < 2 * (num * scale) ∨
        (scaled rank + scaled (rank + 1)) * den = 2 * (num * scale) ∧ rank % 2 = 1 := by
  delta scale
  exact lt_rounded_iff (num * Nat.pow 2 1074) hden rank

-- The middle between the magnitude of a rank and the next one.
def halfway (rank : Nat) : ℚ := (scaled rank + scaled (rank + 1)) / (2 * scale)

-- Whether a number is rounded to a magnitude of a higher rank.
def Exceeds (value : ℚ) (rank : Nat) : Prop :=
  halfway rank < value ∨ halfway rank = value ∧ rank % 2 = 1

theorem lt_nearestRank_iff_exceeds (num : Nat) {den : Nat} (hden : 0 < den) (rank : Nat) :
    rank < nearestRank num den ↔ Exceeds (num / den) rank := by
  have hden' : (0 : ℚ) < den := Nat.cast_pos.mpr hden
  have hproduct : (num : ℚ) * (2 * scale) = 2 * (num * scale) := by ring
  rw [lt_nearestRank_iff num hden, Exceeds, halfway, div_lt_div_iff₀ two_mul_scale_pos hden',
    div_eq_div_iff two_mul_scale_pos.ne' hden'.ne', hproduct]
  norm_cast

theorem halfway_monotone : Monotone halfway := by
  intro lower upper hle
  have hmono := scaled_strictMono.monotone
  refine div_le_div_of_nonneg_right ?_ two_mul_scale_pos.le
  exact_mod_cast Nat.add_le_add (hmono hle) (hmono (Nat.succ_le_succ hle))

-- The middle between the greatest finite magnitude and the next power of two, where the numbers end
-- that are rounded to finite values.
def overflow : Nat := 2 ^ 1024 - 2 ^ 970

theorem halfway_last : halfway (infiniteRank - 1) = overflow := by
  have hsum : scaled (infiniteRank - 1) + scaled (infiniteRank - 1 + 1) =
      overflow * (2 * scale) := by
    decide +kernel
  rw [halfway, div_eq_iff two_mul_scale_pos.ne']
  exact_mod_cast hsum

theorem halfway_le_overflow {rank : Nat} (hrank : rank < infiniteRank) :
    halfway rank ≤ overflow :=
  halfway_last ▸ halfway_monotone (Nat.le_sub_one_of_lt hrank)

-- Half of the least magnitude is the first middle.
theorem halfway_zero : halfway 0 = 1 / (2 * scale) := by
  rw [halfway, zero_add, scaled_of_lt (by decide), scaled_of_lt (by decide), Nat.cast_zero,
    Nat.cast_one, zero_add]

theorem exceeds_of_overflow_lt {value : ℚ} {rank : Nat} (hvalue : overflow < value)
    (hrank : rank < infiniteRank) : Exceeds value rank :=
  .inl ((halfway_le_overflow hrank).trans_lt hvalue)

theorem not_exceeds_of_lt {value : ℚ} (hvalue : value < 1 / (2 * scale)) (rank : Nat) :
    ¬Exceeds value rank := by
  have hmiddle : value < halfway rank :=
    hvalue.trans_le (halfway_zero ▸ halfway_monotone (Nat.zero_le rank))
  rintro (hlt | ⟨heq, -⟩)
  · exact hlt.not_gt hmiddle
  · exact hmiddle.ne' heq

theorem mul_two_scale_lt {coefficient power : Nat}
    (hsmall : coefficient.log2 + 1076 ≤ 3 * power) : coefficient * (2 * scale) < 10 ^ power := by
  have hscale : 2 * scale = 2 ^ 1075 := by decide +kernel
  calc coefficient * (2 * scale) < 2 ^ (coefficient.log2 + 1) * (2 * scale) :=
        Nat.mul_lt_mul_of_pos_right Nat.lt_log2_self (Nat.mul_pos two_pos scale_pos)
    _ = 2 ^ (coefficient.log2 + 1 + 1075) := by rw [hscale, ← Nat.pow_add]
    _ ≤ 2 ^ (3 * power) := Nat.pow_le_pow_right two_pos hsmall
    _ = 8 ^ power := Nat.pow_mul 2 3 power
    _ ≤ 10 ^ power := Nat.pow_le_pow_left (by decide) power

-- A decimal number is rounded to the nearest magnitude. Where the power of ten is not formed, the
-- number is beyond all middles or before all of them.
theorem lt_decimalRank_iff (number : Decimal) {rank : Nat} (hrank : rank < infiniteRank) :
    rank < decimalRank number.coefficient number.exponent ↔ Exceeds number.magnitude rank := by
  obtain ⟨negative, coefficient, exponent⟩ := number
  simp only [Decimal.magnitude]
  cases exponent with
  | ofNat power =>
      rw [decimalRank, Int.ofNat_eq_natCast, zpow_natCast]
      split
      · rename_i hzero
        subst hzero
        refine iff_of_false (Nat.not_lt_zero rank) (not_exceeds_of_lt ?_ rank)
        rw [Nat.cast_zero, zero_mul]
        exact one_div_pos.mpr two_mul_scale_pos
      split
      · rename_i hzero hpower
        refine iff_of_true hrank (exceeds_of_overflow_lt ?_ hrank)
        have hpow : overflow < 10 ^ power :=
          calc overflow < 10 ^ 309 := by decide +kernel
            _ ≤ 10 ^ power := Nat.pow_le_pow_right (by decide) hpower
        have hproduct : overflow < coefficient * 10 ^ power :=
          hpow.trans_le (Nat.le_mul_of_pos_left _ (Nat.pos_of_ne_zero hzero))
        exact_mod_cast hproduct
      · rw [lt_nearestRank_iff_exceeds _ Nat.one_pos, Nat.cast_one, div_one, Nat.cast_mul,
          Nat.pow_eq, Nat.cast_pow, Nat.cast_ofNat]
  | negSucc power =>
      rw [decimalRank, zpow_negSucc, ← div_eq_mul_inv]
      split
      · rename_i hsmall
        refine iff_of_false (Nat.not_lt_zero rank) (not_exceeds_of_lt ?_ rank)
        rw [div_lt_div_iff₀ (by positivity) two_mul_scale_pos, one_mul]
        exact_mod_cast mul_two_scale_lt hsmall
      · rw [Nat.pow_eq, lt_nearestRank_iff_exceeds _ (Nat.pow_pos (by decide)), Nat.cast_pow,
          Nat.cast_ofNat]

theorem infiniteRank_le_decimalRank_iff (number : Decimal) :
    infiniteRank ≤ decimalRank number.coefficient number.exponent ↔
      overflow ≤ number.magnitude := by
  have hlast : infiniteRank - 1 < infiniteRank := by decide
  rw [← Nat.sub_one_add_one_eq_of_pos (by decide : 0 < infiniteRank), Nat.add_one_le_iff,
    lt_decimalRank_iff number hlast, Exceeds, halfway_last, le_iff_lt_or_eq]
  exact or_congr_right (and_iff_left (by decide))

-- Only the numbers below the last middle are rounded to finite values.
theorem isFinite_ofDecimal_iff (number : Decimal) :
    (ofDecimal number).isFinite ↔ number.magnitude < overflow := by
  rw [← not_le, ← infiniteRank_le_decimalRank_iff, not_le, ofDecimal, Finite.ofRank?]
  by_cases hrank : decimalRank number.coefficient number.exponent < infiniteRank
  · simp [hrank, isFinite]
  · simp [hrank, isFinite]

end Binary64

end Verdict

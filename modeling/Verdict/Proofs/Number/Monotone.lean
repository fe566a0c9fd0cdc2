import Verdict.Proofs.Number.Rounding

namespace Verdict

-- The exact number with its sign.
def Decimal.value (number : Decimal) : ℚ :=
  if number.negative then -number.magnitude else number.magnitude

theorem Decimal.magnitude_nonneg (number : Decimal) : 0 ≤ number.magnitude := by
  rw [magnitude]
  positivity

theorem Decimal.abs_value (number : Decimal) : |number.value| = number.magnitude := by
  rw [value]
  split
  · rw [abs_neg, abs_of_nonneg number.magnitude_nonneg]
  · exact abs_of_nonneg number.magnitude_nonneg

namespace Binary64

theorem Exceeds.of_le {value other : ℚ} {rank : Nat} (h : Exceeds value rank)
    (hle : value ≤ other) : Exceeds other rank := by
  rcases h with hlt | ⟨heq, hodd⟩
  · exact .inl (hlt.trans_le hle)
  · rcases hle.lt_or_eq with hlt | rfl
    · exact .inl (heq ▸ hlt)
    · exact .inr ⟨heq, hodd⟩

-- The rank of the nearest magnitude. All overflows are one magnitude, infinity.
def roundedRank (number : Decimal) : Nat :=
  min (decimalRank number.coefficient number.exponent) infiniteRank

section

variable {number left right : Decimal} {rank : Nat}

theorem lt_roundedRank_iff (hrank : rank < infiniteRank) :
    rank < roundedRank number ↔ Exceeds number.magnitude rank := by
  rw [roundedRank, lt_min_iff, and_iff_left hrank]
  exact lt_decimalRank_iff number hrank

theorem place_ofDecimal (number : Decimal) :
    (ofDecimal number).place =
      if number.negative then -(roundedRank number : Int) else roundedRank number := by
  rw [ofDecimal, Finite.ofRank?, roundedRank]
  by_cases hrank : decimalRank number.coefficient number.exponent < infiniteRank
  · rw [dif_pos hrank, Nat.min_eq_left hrank.le]
    rfl
  · rw [dif_neg hrank, Nat.min_eq_right (Nat.le_of_not_lt hrank)]
    rfl

-- Of two magnitudes the lesser is not rounded to a greater one: it would have to be past a middle
-- that the greater is not past.
theorem roundedRank_le (hle : left.magnitude ≤ right.magnitude) :
    roundedRank left ≤ roundedRank right := by
  refine Nat.le_of_not_lt fun hlt => ?_
  have hrank : roundedRank right < infiniteRank := hlt.trans_le (Nat.min_le_right _ _)
  have hexceeds := ((lt_roundedRank_iff hrank).mp hlt).of_le hle
  exact Nat.lt_irrefl _ ((lt_roundedRank_iff hrank).mpr hexceeds)

theorem roundedRank_eq_zero (hzero : number.magnitude = 0) : roundedRank number = 0 := by
  refine Nat.eq_zero_of_not_pos fun hpos => ?_
  have hexceeds := (lt_roundedRank_iff (by decide)).mp hpos
  rw [hzero] at hexceeds
  exact not_exceeds_of_lt (one_div_pos.mpr two_mul_scale_pos) 0 hexceeds

-- Rounding keeps the order of numbers, and equal numbers are rounded to one place.
theorem place_ofDecimal_le (hle : left.value ≤ right.value) :
    (ofDecimal left).place ≤ (ofDecimal right).place := by
  have hleft := left.magnitude_nonneg
  have hright := right.magnitude_nonneg
  rw [place_ofDecimal, place_ofDecimal]
  rw [Decimal.value, Decimal.value] at hle
  by_cases hnegative : left.negative
  · rw [if_pos hnegative] at hle ⊢
    by_cases hnegative' : right.negative
    · rw [if_pos hnegative'] at hle ⊢
      have hranks := roundedRank_le (neg_le_neg_iff.mp hle)
      omega
    · rw [if_neg hnegative']
      omega
  · rw [if_neg hnegative] at hle ⊢
    by_cases hnegative' : right.negative
    · -- both numbers are zero
      rw [if_pos hnegative'] at hle ⊢
      have hzero : roundedRank left = 0 := roundedRank_eq_zero (by linarith)
      have hzero' : roundedRank right = 0 := roundedRank_eq_zero (by linarith)
      omega
    · rw [if_neg hnegative'] at hle ⊢
      have hranks := roundedRank_le hle
      omega

theorem place_ofDecimal_eq (heq : left.value = right.value) :
    (ofDecimal left).place = (ofDecimal right).place :=
  le_antisymm (place_ofDecimal_le heq.le) (place_ofDecimal_le heq.ge)

-- A number that is one of the magnitudes is rounded to itself.
theorem roundedRank_of_scaled (hrank : rank < infiniteRank)
    (hexact : number.magnitude * scale = scaled rank) : roundedRank number = rank := by
  have hscale : (0 : ℚ) < scale := Nat.cast_pos.mpr scale_pos
  have hmagnitude : number.magnitude * (2 * scale) = 2 * scaled rank := by
    rw [← hexact]
    ring
  refine le_antisymm (Nat.le_of_not_lt fun hlt => ?_) (Nat.le_of_not_lt fun hlt => ?_)
  · have hmiddle : number.magnitude < halfway rank := by
      rw [halfway, lt_div_iff₀ two_mul_scale_pos, hmagnitude]
      have hnext : scaled rank < scaled (rank + 1) := scaled_strictMono (Nat.lt_succ_self rank)
      exact_mod_cast (by omega : 2 * scaled rank < scaled rank + scaled (rank + 1))
    rcases (lt_roundedRank_iff hrank).mp hlt with hpast | ⟨heq, -⟩
    · exact hpast.not_gt hmiddle
    · exact hmiddle.ne' heq
  · have hmiddle : halfway (roundedRank number) < number.magnitude := by
      rw [halfway, div_lt_iff₀ two_mul_scale_pos, hmagnitude]
      have hthis : scaled (roundedRank number) < scaled rank := scaled_strictMono hlt
      have hnext : scaled (roundedRank number + 1) ≤ scaled rank := scaled_strictMono.monotone hlt
      exact_mod_cast (by omega :
        scaled (roundedRank number) + scaled (roundedRank number + 1) < 2 * scaled rank)
    exact Nat.lt_irrefl _ ((lt_roundedRank_iff (hlt.trans hrank)).mpr (.inl hmiddle))

end

theorem exists_scale_eq :
    ∃ shift, 52 ≤ shift ∧ (shift + 2) * binade < infiniteRank ∧ scale = Nat.pow 2 shift := by
  delta scale
  exact ⟨_, by decide, by decide, Eq.refl _⟩

-- Whole numbers up to `2 ^ 53` have a significand each, shifted until it takes up its binade.
theorem exists_scaled_eq {n : Nat} (hn : n ≤ 2 * binade) :
    ∃ rank < infiniteRank, scaled rank = n * scale := by
  obtain ⟨shift, hshift, hlimit, hscale⟩ := exists_scale_eq
  rw [Nat.pow_eq] at hscale
  rw [hscale]
  rcases Nat.eq_zero_or_pos n with rfl | hpos
  · exact ⟨0, by decide, by rw [Nat.zero_mul]; rfl⟩
  rcases Nat.lt_or_eq_of_le hn with hlt | rfl
  · have hlog : n.log2 ≤ 52 := Nat.lt_succ_iff.mp ((Nat.log2_lt hpos.ne').mpr hlt)
    have hbinade : 2 ^ n.log2 * 2 ^ (52 - n.log2) = binade := by
      rw [← Nat.pow_add, Nat.add_sub_cancel' hlog]
      rfl
    have hlow : binade ≤ n * 2 ^ (52 - n.log2) :=
      hbinade ▸ Nat.mul_le_mul_right _ (Nat.log2_self_le hpos.ne')
    have hhigh : n * 2 ^ (52 - n.log2) ≤ 2 * binade :=
      calc n * 2 ^ (52 - n.log2) ≤ 2 ^ (n.log2 + 1) * 2 ^ (52 - n.log2) :=
            Nat.mul_le_mul_right _ Nat.lt_log2_self.le
        _ = 2 * binade := by rw [← hbinade]; ring
    refine ⟨(shift - 52 + n.log2) * binade + n * 2 ^ (52 - n.log2), ?_, ?_⟩
    · calc (shift - 52 + n.log2) * binade + n * 2 ^ (52 - n.log2)
          ≤ shift * binade + 2 * binade :=
            Nat.add_le_add (Nat.mul_le_mul_right _ (by omega)) hhigh
        _ = (shift + 2) * binade := (Nat.add_mul _ _ _).symm
        _ < infiniteRank := hlimit
    · have hexponent : 52 - n.log2 + (shift - 52 + n.log2) = shift := by omega
      rw [scaled_add (.inr hlow) hhigh, Nat.mul_assoc, ← Nat.pow_add, hexponent]
  · exact ⟨shift * binade + 2 * binade, (Nat.add_mul _ _ _).symm.trans_lt hlimit,
      scaled_add (.inr (by decide)) le_rfl⟩

-- No whole number up to `2 ^ 53` is rounded.
theorem exists_finite_of_value_eq {number : Decimal} {n : Int} (hvalue : number.value = n)
    (hn : n.natAbs ≤ 2 * binade) :
    ∃ value : Finite, ofDecimal number = .finite value ∧ value.exact = n * scale := by
  obtain ⟨rank, hrank, hscaled⟩ := exists_scaled_eq hn
  have hmagnitude : number.magnitude = n.natAbs := by
    rw [← number.abs_value, hvalue, Nat.cast_natAbs, Int.cast_abs]
  have hrounded : roundedRank number = rank := by
    refine roundedRank_of_scaled hrank ?_
    rw [hmagnitude, hscaled, Nat.cast_mul]
  have hdecimal : decimalRank number.coefficient number.exponent = rank := by
    rw [roundedRank] at hrounded
    omega
  refine ⟨⟨number.negative, rank, hrank⟩, ?_, ?_⟩
  · rw [ofDecimal, hdecimal, Finite.ofRank?, dif_pos hrank]
  · simp only [Finite.exact, hscaled, Nat.cast_mul]
    rw [Decimal.value, hmagnitude] at hvalue
    by_cases hnegative : number.negative
    · rw [if_pos hnegative] at hvalue ⊢
      have hsign : -(n.natAbs : Int) = n := Int.cast_injective (α := ℚ) (by simpa using hvalue)
      rw [← Int.neg_mul, hsign]
    · rw [if_neg hnegative] at hvalue ⊢
      have hsign : (n.natAbs : Int) = n := Int.cast_injective (α := ℚ) (by simpa using hvalue)
      rw [hsign]

-- Different whole numbers up to `2 ^ 53` have places in their order.
theorem place_ofDecimal_lt {left right : Decimal} {m n : Int} (hleft : left.value = m)
    (hright : right.value = n) (hm : |m| ≤ 2 ^ 53) (hn : |n| ≤ 2 ^ 53) (hlt : m < n) :
    (ofDecimal left).place < (ofDecimal right).place := by
  rw [Int.abs_eq_natAbs] at hm hn
  replace hm : m.natAbs ≤ 2 * binade := Int.ofNat_le.mp hm
  replace hn : n.natAbs ≤ 2 * binade := Int.ofNat_le.mp hn
  obtain ⟨leftValue, heq, hexact⟩ := exists_finite_of_value_eq hleft hm
  obtain ⟨rightValue, heq', hexact'⟩ := exists_finite_of_value_eq hright hn
  rw [heq, heq', Finite.place_lt_place_iff, hexact, hexact']
  exact Int.mul_lt_mul_of_pos_right hlt (Nat.cast_pos.mpr scale_pos)

end Binary64

end Verdict

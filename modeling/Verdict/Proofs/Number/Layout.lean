import Verdict.Host.Writer
import Verdict.Proofs.Number.Spelling

namespace Verdict

namespace Numeral

-- The texts of decimal numbers.
def IsLayout (text : List Char) : Prop := ∃ spelling : Spelling, spelling.chars = text

-- Digits, among which a point may stand.
def IsMantissa (text : List Char) : Prop :=
  ∃ whole fraction, text = whole ++ Spelling.fractionChars fraction ∧
    IsDigits (whole ++ fraction.getD [])

-- Nothing, or an exponent.
def IsExponent (text : List Char) : Prop :=
  ∃ exponent, text = Spelling.exponentChars exponent ∧ ∀ signed ∈ exponent, IsDigits signed.2

theorem isMantissa_of_isDigits {digits : List Char} (h : IsDigits digits) : IsMantissa digits :=
  ⟨digits, none, (List.append_nil digits).symm, by simpa using h⟩

theorem isExponent_nil : IsExponent [] := ⟨none, rfl, by simp⟩

theorem IsMantissa.isLayout {mantissa exponent : List Char} (hmantissa : IsMantissa mantissa)
    (hexponent : IsExponent exponent) (sign : Sign) :
    IsLayout (sign.chars ++ (mantissa ++ exponent)) := by
  obtain ⟨whole, fraction, rfl, hdigits⟩ := hmantissa
  obtain ⟨power, rfl, hpower⟩ := hexponent
  refine ⟨⟨sign, whole, fraction, power, hdigits, hpower⟩, ?_⟩
  rw [Spelling.chars, Spelling.body, List.append_assoc]

-- A number that is laid out in one of these ways is read back as some number.
theorem exists_read?_of_isLayout {text : List Char} (h : IsLayout text) :
    (∃ numeral, read? text = some numeral) ∧ ∀ c ∈ text, isNumeralChar c := by
  obtain ⟨spelling, rfl⟩ := h
  exact ⟨⟨_, spelling.read?_chars⟩, spelling.isNumeralChar_of_mem⟩

theorem isDigits_toDigits (value : Nat) : IsDigits (Nat.toDigits 10 value) :=
  ⟨Nat.toDigits_ne_nil, fun _ => Nat.isDigit_of_mem_toDigits (by decide) (by decide)⟩

theorem isLayout_toDigits (value : Nat) : IsLayout (Nat.toDigits 10 value) := by
  have hmantissa := isMantissa_of_isDigits (isDigits_toDigits value)
  simpa [Sign.chars] using hmantissa.isLayout isExponent_nil .absent

end Numeral

namespace Decimal

open Numeral

variable {digits : List Char}

theorem isDigits_significantDigits (number : Decimal) : IsDigits number.significantDigits := by
  unfold significantDigits
  split
  · exact ⟨by simp, by simp⟩
  · rename_i hne
    refine ⟨hne, fun c hc => ?_⟩
    have hmem := (List.dropWhile_suffix _).mem (List.mem_reverse.mp hc)
    exact (isDigits_toDigits number.coefficient).2 c (List.mem_reverse.mp hmem)

-- Each side of the point has a digit.
theorem isMantissa_pointed (hdigits : ∀ c ∈ digits, c.isDigit) (whole : Nat) :
    IsMantissa (pointed digits whole) := by
  have hside : ∀ side : List Char, (∀ c ∈ side, c.isDigit) →
      IsDigits (if side = [] then ['0'] else side) := by
    intro side hside
    split
    · exact ⟨by simp, by simp⟩
    · rename_i hne
      exact ⟨hne, hside⟩
  refine ⟨_, some _, rfl, (hside _ fun c hc => ?_).append (hside _ fun c hc => ?_)⟩
  · rcases List.mem_append.mp (List.mem_of_mem_take hc) with hc | hc
    · exact hdigits c hc
    · rw [List.eq_of_mem_replicate hc]
      decide
  · exact hdigits c (List.mem_of_mem_drop hc)

theorem isMantissa_positional (hdigits : ∀ c ∈ digits, c.isDigit) (exponent : Int) :
    IsMantissa (positional digits exponent) := by
  cases exponent with
  | ofNat exponent => exact isMantissa_pointed hdigits (exponent + 1)
  | negSucc exponent =>
      refine isMantissa_pointed (fun c hc => ?_) 0
      rcases List.mem_append.mp hc with hc | hc
      · rw [List.eq_of_mem_replicate hc]
        decide
      · exact hdigits c hc

theorem exists_scientific (hdigits : IsDigits digits) (exponent : Int) :
    ∃ mantissa tail, scientific digits exponent = mantissa ++ tail ∧ IsMantissa mantissa ∧
      IsExponent tail := by
  refine ⟨_, _, rfl, ?_, ?_⟩
  · split
    · exact isMantissa_of_isDigits hdigits
    · exact isMantissa_pointed hdigits.2 1
  · have hpower := isDigits_toDigits exponent.natAbs
    split
    · exact ⟨some (.minus, _), rfl, by rintro _ ⟨⟩; exact hpower⟩
    · exact ⟨some (.plus, _), rfl, by rintro _ ⟨⟩; exact hpower⟩

theorem isLayout_layout (range : PositionalRange) (number : Decimal) :
    IsLayout (number.layout range) := by
  have hdigits := isDigits_significantDigits number
  have hbody : ∀ exponent : Int, ∃ mantissa tail,
      (if range.lowest ≤ exponent ∧ exponent < range.limit then
        positional number.significantDigits exponent
      else scientific number.significantDigits exponent) = mantissa ++ tail ∧
        IsMantissa mantissa ∧ IsExponent tail := by
    intro exponent
    split
    · exact ⟨_, [], (List.append_nil _).symm, isMantissa_positional hdigits.2 exponent,
        isExponent_nil⟩
    · exact exists_scientific hdigits exponent
  unfold layout
  obtain ⟨mantissa, tail, htext, hmantissa, htail⟩ :=
    hbody (if number.coefficient = 0 then 0 else number.leadingExponent)
  simp only [htext]
  split
  · exact hmantissa.isLayout htail .minus
  · exact hmantissa.isLayout htail .absent

end Decimal

theorem HostNumber.isLayout_render (value : HostNumber) : Numeral.IsLayout value.render := by
  cases value with
  | float value => exact Decimal.isLayout_layout positionalRange value.shortest
  | integer value =>
      rw [render]
      split
      · have hmantissa := Numeral.isMantissa_of_isDigits (Numeral.isDigits_toDigits value.natAbs)
        simpa [Sign.chars] using hmantissa.isLayout Numeral.isExponent_nil .minus
      · exact Numeral.isLayout_toDigits _

end Verdict

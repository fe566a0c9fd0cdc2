import Verdict.Proofs.Text.LowerCase
import Verdict.Proofs.Text.Split
import Verdict.Source.Lexeme

namespace Verdict

namespace Numeral

-- The characters that decimal numbers are written in.
def isNumeralChar (c : Char) : Bool :=
  c.isDigit || c = '.' || c = 'e' || c = 'E' || c = '+' || c = '-'

theorem isNumeralChar_of_isDigit {c : Char} (hdigit : c.isDigit) : isNumeralChar c := by
  simp [isNumeralChar, hdigit]

theorem ascii_of_isNumeralChar {c : Char} (hc : isNumeralChar c) : c.toNat < 0x80 := by
  simp only [isNumeralChar, Bool.or_eq_true, decide_eq_true_eq] at hc
  rcases hc with ((((hdigit | rfl) | rfl) | rfl) | rfl) | rfl
  · exact Text.ascii_of_isAlphanum (by simp [Text.isAlphanum_eq, hdigit])
  all_goals decide

theorem isBlank_eq_false {c : Char} (hc : isNumeralChar c) : Text.isBlank c = false :=
  Text.forall_ascii (motive := fun c => isNumeralChar c → Text.isBlank c = false)
    (by decide +kernel) (ascii_of_isNumeralChar hc) hc

theorem trim_eq_self {text : List Char} (htext : ∀ c ∈ text, isNumeralChar c) :
    Text.trim text = text :=
  Text.trim_eq_self (fun c hc => isBlank_eq_false (htext c (List.mem_of_mem_head? hc)))
    (fun c hc => isBlank_eq_false (htext c (List.mem_of_mem_getLast? hc)))

theorem mem_takeSign {text : List Char} {c : Char} (hmem : c ∈ text) :
    c ∈ (takeSign text).2 ∨ isNumeralChar c := by
  unfold takeSign
  split
  · rcases List.mem_cons.mp hmem with rfl | hrest
    · exact .inr (by decide)
    · exact .inl hrest
  · rcases List.mem_cons.mp hmem with rfl | hrest
    · exact .inr (by decide)
    · exact .inl hrest
  · exact .inl hmem

theorem isNumeralChar_of_readInt? {text : List Char} {value : Int}
    (hread : readInt? text = some value) : ∀ c ∈ text, isNumeralChar c := by
  intro c hmem
  simp only [readInt?] at hread
  split at hread
  · rename_i hdigits
    rcases mem_takeSign hmem with hrest | hsign
    · exact isNumeralChar_of_isDigit (List.all_eq_true.mp hdigits.2 c hrest)
    · exact hsign
  · simp at hread

theorem isNumeralChar_of_readExponent? {text : List Char} {value : Int}
    (hread : readExponent? text = some value) : ∀ c ∈ text, isNumeralChar c := by
  intro c hmem
  cases text with
  | nil => simp at hmem
  | cons first rest =>
      simp only [readExponent?] at hread
      split at hread
      · rename_i hfirst
        rcases List.mem_cons.mp hmem with rfl | hrest
        · rcases hfirst with rfl | rfl <;> decide
        · exact isNumeralChar_of_readInt? hread c hrest
      · simp at hread

theorem mem_takeFraction {text : List Char} {c : Char} (hmem : c ∈ text) :
    isNumeralChar c ∨ c ∈ (takeFraction text).2 := by
  unfold takeFraction
  split
  · rcases List.mem_cons.mp hmem with rfl | hrest
    · exact .inl (by decide)
    · rcases Text.mem_takeWhile_or_dropWhile Char.isDigit hrest with hdigit | hdrop
      · exact .inl (isNumeralChar_of_isDigit hdigit)
      · exact .inr hdrop
  · exact .inr hmem

theorem isNumeralChar_of_readDecimal? {negative : Bool} {text : List Char} {value : Decimal}
    (hread : readDecimal? negative text = some value) : ∀ c ∈ text, isNumeralChar c := by
  intro c hmem
  simp only [readDecimal?] at hread
  split at hread
  · simp at hread
  · obtain ⟨exponent, hexponent, -⟩ := Option.map_eq_some_iff.mp hread
    rcases Text.mem_takeWhile_or_dropWhile Char.isDigit hmem with hdigit | hdrop
    · exact isNumeralChar_of_isDigit hdigit
    · rcases mem_takeFraction hdrop with hchar | hrest
      · exact hchar
      · exact isNumeralChar_of_readExponent? hexponent c hrest

theorem readDecimal?_of_read? {text : List Char} {value : Decimal}
    (hread : read? text = some (.decimal value)) :
    readDecimal? (takeSign text).1 (takeSign text).2 = some value := by
  simp only [read?] at hread
  split at hread
  · cases hread
  split at hread
  · cases hread
  obtain ⟨_, hdecimal, hvalue⟩ := Option.map_eq_some_iff.mp hread
  cases hvalue
  exact hdecimal

theorem isNumeralChar_of_read? {text : List Char} {value : Decimal}
    (hread : read? text = some (.decimal value)) : ∀ c ∈ text, isNumeralChar c := by
  intro c hmem
  rcases mem_takeSign hmem with hbody | hsign
  · exact isNumeralChar_of_readDecimal? (readDecimal?_of_read? hread) c hbody
  · exact hsign

end Numeral

namespace Lexeme

open Numeral

-- Only decimal numbers are finite, so no name of infinity or NaN is left.
theorem exists_decimal_of_isNumber {text : List Char} (hnumber : isNumber text) :
    ∃ value, read? text = some (.decimal value) := by
  cases text with
  | nil => simp [isNumber] at hnumber
  | cons first rest =>
      simp only [isNumber, Bool.and_eq_true, Option.any_eq_true_iff_get] at hnumber
      obtain ⟨-, hsome, hfinite⟩ := hnumber
      obtain ⟨value, hvalue⟩ := Option.isSome_iff_exists.mp hsome
      simp only [hvalue, Option.get_some] at hfinite
      obtain ⟨numeral, hnumeral, rfl⟩ := Option.map_eq_some_iff.mp hvalue
      cases numeral with
      | infinity negative => simp [Binary64.ofNumeral, Binary64.isFinite] at hfinite
      | nan => simp [Binary64.ofNumeral, Binary64.isFinite] at hfinite
      | decimal value => exact ⟨value, hnumeral⟩

theorem isNumeralChar_of_isNumber {text : List Char} (hnumber : isNumber text) :
    ∀ c ∈ text, isNumeralChar c := by
  obtain ⟨value, hread⟩ := exists_decimal_of_isNumber hnumber
  exact isNumeralChar_of_read? hread

end Lexeme

end Verdict

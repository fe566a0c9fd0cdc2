import Mathlib.Tactic.FieldSimp
import Verdict.Proofs.Number.Layout
import Verdict.Proofs.Number.Monotone

namespace Verdict

namespace Numeral

theorem ofDigits_append (front back : List Char) :
    ofDigits (front ++ back) = ofDigits front * 10 ^ back.length + ofDigits back := by
  induction back using List.reverseRecOn with
  | nil => simp [ofDigits]
  | append_singleton back digit ih =>
      rw [← List.append_assoc, ofDigits, List.foldl_concat, ← ofDigits, ih, List.length_append,
        Nat.pow_add, ofDigits.eq_def (back ++ [digit]), List.foldl_concat, ← ofDigits]
      simp
      ring

theorem ofDigits_toDigits (n : Nat) : ofDigits (Nat.toDigits 10 n) = n :=
  Nat.ofDigitChars_toDigits (by decide) (by decide)

end Numeral

open Numeral

namespace Spelling

-- What the places of the digits and the exponent add up to.
def value (spelling : Spelling) : ℚ :=
  let fraction := spelling.fraction.getD []
  let magnitude : ℚ :=
    (ofDigits spelling.whole + ofDigits fraction / 10 ^ fraction.length) * 10 ^ spelling.power
  if spelling.sign.negative then -magnitude else magnitude

theorem value_number (spelling : Spelling) : spelling.number.value = spelling.value := by
  have hten : (10 : ℚ) ≠ 0 := by norm_num
  have hmagnitude : spelling.number.magnitude =
      (ofDigits spelling.whole + ofDigits (spelling.fraction.getD []) /
        10 ^ (spelling.fraction.getD []).length) * 10 ^ spelling.power := by
    rw [Decimal.magnitude, number, digits, ofDigits_append, zpow_sub₀ hten, zpow_natCast]
    push_cast
    field_simp
  rw [Decimal.value, hmagnitude]
  rfl

end Spelling

namespace Numeral

-- Whether a text is a decimal number that denotes a rational. The exponent may follow a capital
-- letter too.
def Denotes (text : List Char) (value : ℚ) : Prop :=
  ∃ spelling : Spelling, text.map Char.toLower = spelling.chars ∧ spelling.value = value

theorem toLower_eq_self_of_isNumeralChar {c : Char} (hc : isNumeralChar c) (hletter : c ≠ 'E') :
    c.toLower = c :=
  Text.forall_ascii (motive := fun c => isNumeralChar c → c ≠ 'E' → c.toLower = c)
    (by decide +kernel) (ascii_of_isNumeralChar hc) hc hletter

theorem map_toLower_digits {digits : List Char} (hdigits : ∀ c ∈ digits, c.isDigit) :
    digits.map Char.toLower = digits := by
  refine (List.map_congr_left fun c hc => ?_).trans (List.map_id digits)
  have hdigit := hdigits c hc
  refine toLower_eq_self_of_isNumeralChar (isNumeralChar_of_isDigit hdigit) ?_
  rintro rfl
  exact absurd hdigit (by decide)

theorem map_toLower_sign (sign : Sign) : sign.chars.map Char.toLower = sign.chars := by
  cases sign <;> decide

theorem exists_sign (text : List Char) : ∃ sign : Sign,
    text = sign.chars ++ (takeSign text).2 ∧ sign.negative = (takeSign text).1 := by
  unfold takeSign
  split
  · exact ⟨.minus, rfl, rfl⟩
  · exact ⟨.plus, rfl, rfl⟩
  · exact ⟨.absent, rfl, rfl⟩

theorem exists_fraction (text : List Char) : ∃ fraction,
    text = Spelling.fractionChars fraction ++ (takeFraction text).2 ∧
      fraction.getD [] = (takeFraction text).1 ∧ ∀ c ∈ fraction.getD [], c.isDigit := by
  unfold takeFraction
  split
  · rename_i rest
    refine ⟨some (rest.takeWhile Char.isDigit), ?_, rfl, fun c hc => List.mem_takeWhile_imp hc⟩
    rw [Spelling.fractionChars, List.cons_append, List.takeWhile_append_dropWhile]
  · exact ⟨none, rfl, rfl, by simp⟩

theorem exists_exponent {text : List Char} {power : Int} (hread : readExponent? text = some power) :
    ∃ exponent, text.map Char.toLower = Spelling.exponentChars exponent ∧
      (∀ signed ∈ exponent, IsDigits signed.2) ∧
      ∀ spelling : Spelling, spelling.exponent = exponent → spelling.power = power := by
  cases text with
  | nil =>
      cases hread
      exact ⟨none, rfl, by simp, fun spelling hnone => by rw [Spelling.power, hnone]⟩
  | cons c rest =>
      rw [readExponent?] at hread
      split at hread
      case isFalse => cases hread
      rename_i hletter
      have hlower : c.toLower = 'e' := by
        rcases hletter with rfl | rfl <;> decide
      obtain ⟨sign, hrest, hnegative⟩ := exists_sign rest
      simp only [readInt?] at hread
      split at hread
      case isFalse => cases hread
      rename_i hdigits
      have hall := List.all_eq_true.mp hdigits.2
      refine ⟨some (sign, (takeSign rest).2), ?_, ?_, fun spelling hsome => ?_⟩
      · rw [List.map_cons, hlower, Spelling.exponentChars]
        conv_lhs => rw [hrest, List.map_append, map_toLower_sign, map_toLower_digits hall]
      · rintro _ ⟨⟩
        exact ⟨hdigits.1, hall⟩
      · simp only [Spelling.power, hsome, hnegative]
        exact Option.some.inj hread

-- All that is read as a decimal number is written as one.
theorem exists_spelling_of_readDecimal? {sign : Sign} {body : List Char} {number : Decimal}
    (hread : readDecimal? sign.negative body = some number) :
    ∃ spelling : Spelling, spelling.sign = sign ∧ body.map Char.toLower = spelling.body ∧
      spelling.number = number := by
  simp only [readDecimal?] at hread
  split at hread
  · cases hread
  rename_i hne
  obtain ⟨power, hpower, rfl⟩ := Option.map_eq_some_iff.mp hread
  obtain ⟨fraction, htext, hfraction, hdigits⟩ := exists_fraction (body.dropWhile Char.isDigit)
  obtain ⟨exponent, htail, hexponent, hvalue⟩ := exists_exponent hpower
  have hwhole : ∀ c ∈ body.takeWhile Char.isDigit, c.isDigit := fun c hc =>
    List.mem_takeWhile_imp hc
  have hpoint : (Spelling.fractionChars fraction).map Char.toLower =
      Spelling.fractionChars fraction := by
    cases fraction with
    | none => rfl
    | some digits => exact congrArg ('.' :: ·) (map_toLower_digits hdigits)
  have hall : IsDigits (body.takeWhile Char.isDigit ++ fraction.getD []) :=
    ⟨hfraction ▸ hne, List.forall_mem_append.mpr ⟨hwhole, hdigits⟩⟩
  refine ⟨⟨sign, body.takeWhile Char.isDigit, fraction, exponent, hall, hexponent⟩, rfl, ?_, ?_⟩
  · conv_lhs => rw [← List.takeWhile_append_dropWhile (p := Char.isDigit) (l := body), htext]
    rw [List.map_append, List.map_append, map_toLower_digits hwhole, hpoint, htail]
    rfl
  · rw [Spelling.number, hvalue _ rfl]
    simp only [Spelling.digits, hfraction]

theorem exists_spelling_of_read? {text : List Char} {number : Decimal}
    (hread : read? text = some (.decimal number)) :
    ∃ spelling : Spelling, text.map Char.toLower = spelling.chars ∧ spelling.number = number := by
  obtain ⟨sign, htext, hnegative⟩ := exists_sign text
  have hdecimal := readDecimal?_of_read? hread
  rw [← hnegative] at hdecimal
  obtain ⟨spelling, rfl, hbody, hnumber⟩ := exists_spelling_of_readDecimal? hdecimal
  refine ⟨spelling, ?_, hnumber⟩
  rw [htext, List.map_append, map_toLower_sign, hbody, Spelling.chars]

-- A text has at most one spelling that matters: all of them are read alike.
theorem Denotes.unique {text : List Char} {value other : ℚ} (h : Denotes text value)
    (hother : Denotes text other) : value = other := by
  obtain ⟨spelling, htext, rfl⟩ := h
  obtain ⟨second, htext', rfl⟩ := hother
  have hread := spelling.read?_chars
  rw [← htext, htext', second.read?_chars] at hread
  rw [← spelling.value_number, ← second.value_number, (Numeral.decimal.inj (Option.some.inj hread))]

theorem denotes_of_read? {text : List Char} {number : Decimal}
    (hread : read? text = some (.decimal number)) : Denotes text number.value := by
  obtain ⟨spelling, htext, rfl⟩ := exists_spelling_of_read? hread
  exact ⟨spelling, htext, spelling.value_number.symm⟩

end Numeral

-- Digits alone are a spelling of their number, with a sign in front or without.
theorem exists_spelling_toDigits (sign : Sign) (n : Nat) : ∃ spelling : Spelling,
    spelling.chars = sign.chars ++ Nat.toDigits 10 n ∧
      spelling.value = if sign.negative then -(n : ℚ) else n := by
  have hdigits : IsDigits (Nat.toDigits 10 n ++ (none : Option (List Char)).getD []) := by
    simpa using isDigits_toDigits n
  refine ⟨⟨sign, Nat.toDigits 10 n, none, none, hdigits, by simp⟩, ?_, ?_⟩
  · simp [Spelling.chars, Spelling.body, Spelling.fractionChars, Spelling.exponentChars]
  · have hnone : ofDigits [] = 0 := rfl
    simp [Spelling.value, Spelling.power, ofDigits_toDigits, hnone]

-- An integer of the host is written in digits.
theorem HostNumber.exists_spelling_integer (n : Int) : ∃ spelling : Spelling,
    spelling.chars = (HostNumber.integer n).render ∧ spelling.value = n := by
  rw [render]
  split
  · obtain ⟨spelling, hchars, hvalue⟩ := exists_spelling_toDigits .minus n.natAbs
    have habs : -(n.natAbs : Int) = n := by omega
    refine ⟨spelling, hchars, ?_⟩
    rw [hvalue, if_pos (by decide), ← Int.cast_natCast, ← Int.cast_neg, habs]
  · obtain ⟨spelling, hchars, hvalue⟩ := exists_spelling_toDigits .absent n.natAbs
    have habs : (n.natAbs : Int) = n := by omega
    refine ⟨spelling, hchars, ?_⟩
    rw [hvalue, if_neg (by decide), ← Int.cast_natCast, habs]

end Verdict

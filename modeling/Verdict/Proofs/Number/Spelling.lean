import Verdict.Proofs.Number.Numeral

namespace Verdict

-- What may stand in front of digits.
inductive Sign
  | absent
  | plus
  | minus
deriving DecidableEq

namespace Sign

def chars : Sign → List Char
  | absent => []
  | plus => ['+']
  | minus => ['-']

def negative (sign : Sign) : Bool := sign = minus

-- No other sign is taken off a text that has none itself.
theorem takeSign_chars (sign : Sign) {text : List Char}
    (htext : ∀ c ∈ text.head?, c ≠ '-' ∧ c ≠ '+') :
    Numeral.takeSign (sign.chars ++ text) = (sign.negative, text) := by
  cases sign with
  | plus => rfl
  | minus => rfl
  | absent =>
      cases text with
      | nil => rfl
      | cons c rest =>
          obtain ⟨hminus, hplus⟩ := htext c rfl
          rw [chars, List.nil_append, Numeral.takeSign]
          · rfl
          · rintro _ ⟨⟩
            exact hminus rfl
          · rintro _ ⟨⟩
            exact hplus rfl

end Sign

namespace Numeral

def IsDigits (text : List Char) : Prop := text ≠ [] ∧ ∀ c ∈ text, c.isDigit

instance : DecidablePred IsDigits := fun text =>
  decidable_of_iff (text ≠ [] ∧ text.all Char.isDigit) (by simp [IsDigits])

theorem IsDigits.append {front back : List Char} (hfront : IsDigits front) (hback : IsDigits back) :
    IsDigits (front ++ back) :=
  ⟨List.append_ne_nil_of_left_ne_nil hfront.1 back,
    List.forall_mem_append.mpr ⟨hfront.2, hback.2⟩⟩

theorem span_digits {digits rest : List Char} (hdigits : ∀ c ∈ digits, c.isDigit)
    (hrest : ∀ c ∈ rest.head?, c.isDigit = false) :
    (digits ++ rest).takeWhile Char.isDigit = digits ∧
      (digits ++ rest).dropWhile Char.isDigit = rest := by
  rw [List.takeWhile_append_of_pos hdigits, List.dropWhile_append_of_pos hdigits]
  cases rest with
  | nil => simp
  | cons c rest =>
      have hc : c.isDigit = false := hrest c rfl
      simp [hc]

end Numeral

open Numeral

-- How a decimal number is written: in digits, among which a point may stand, with an optional sign
-- in front and an optional exponent behind.
structure Spelling where
  sign : Sign
  whole : List Char
  -- the digits behind the point, if there is one
  fraction : Option (List Char)
  exponent : Option (Sign × List Char)
  isDigits : IsDigits (whole ++ fraction.getD [])
  isDigits_exponent : ∀ signed ∈ exponent, IsDigits signed.2

namespace Spelling

def fractionChars : Option (List Char) → List Char
  | none => []
  | some digits => '.' :: digits

def exponentChars : Option (Sign × List Char) → List Char
  | none => []
  | some (sign, digits) => 'e' :: (sign.chars ++ digits)

theorem head_exponentChars (exponent : Option (Sign × List Char)) :
    ∀ c ∈ (exponentChars exponent).head?, c = 'e' := by
  cases exponent with
  | none => simp [exponentChars]
  | some power => simp [exponentChars]

variable (spelling : Spelling)

def digits : List Char := spelling.whole ++ spelling.fraction.getD []

theorem isDigit_whole : ∀ c ∈ spelling.whole, c.isDigit := fun c hc =>
  spelling.isDigits.2 c (List.mem_append_left _ hc)

theorem isDigit_fraction : ∀ c ∈ spelling.fraction.getD [], c.isDigit := fun c hc =>
  spelling.isDigits.2 c (List.mem_append_right _ hc)

-- The text without its sign.
def body : List Char :=
  spelling.whole ++ (fractionChars spelling.fraction ++ exponentChars spelling.exponent)

def chars : List Char := spelling.sign.chars ++ spelling.body

-- The power of ten that the exponent stands for.
def power : Int :=
  match spelling.exponent with
  | none => 0
  | some (sign, digits) => if sign.negative then -(ofDigits digits : Int) else ofDigits digits

-- The number that is written.
def number : Decimal :=
  ⟨spelling.sign.negative, ofDigits spelling.digits,
    spelling.power - (spelling.fraction.getD []).length⟩

theorem readExponent?_exponentChars :
    readExponent? (exponentChars spelling.exponent) = some spelling.power := by
  rw [power]
  cases hexponent : spelling.exponent with
  | none => rfl
  | some signed =>
      obtain ⟨sign, digits⟩ := signed
      obtain ⟨hne, hdigits⟩ := spelling.isDigits_exponent _ hexponent
      have hfirst : ∀ c ∈ digits.head?, c ≠ '-' ∧ c ≠ '+' := by
        intro c hc
        have hdigit := hdigits c (List.mem_of_mem_head? hc)
        constructor <;> rintro rfl <;> revert hdigit <;> decide
      rw [exponentChars, readExponent?, if_pos (.inl rfl), readInt?, sign.takeSign_chars hfirst]
      exact if_pos ⟨hne, List.all_eq_true.mpr hdigits⟩

theorem takeFraction_fractionChars :
    takeFraction (fractionChars spelling.fraction ++ exponentChars spelling.exponent) =
      (spelling.fraction.getD [], exponentChars spelling.exponent) := by
  have hdigits := spelling.isDigit_fraction
  have hhead := head_exponentChars spelling.exponent
  generalize exponentChars spelling.exponent = tail at *
  cases hfraction : spelling.fraction with
  | none =>
      cases tail with
      | nil => rfl
      | cons c rest =>
          cases hhead c rfl
          rfl
  | some digits =>
      rw [hfraction, Option.getD_some] at hdigits
      obtain ⟨htake, hdrop⟩ := span_digits hdigits fun c hc => by rw [hhead c hc]; decide
      rw [fractionChars, List.cons_append, takeFraction, htake, hdrop]
      rfl

theorem readDecimal?_body :
    readDecimal? spelling.sign.negative spelling.body = some spelling.number := by
  have hpoint : ∀ c ∈ (fractionChars spelling.fraction ++ exponentChars spelling.exponent).head?,
      c.isDigit = false := by
    intro c hc
    cases hfraction : spelling.fraction with
    | none =>
        rw [hfraction] at hc
        rw [head_exponentChars spelling.exponent c hc]
        decide
    | some digits =>
        rw [hfraction] at hc
        cases hc
        decide
  obtain ⟨htake, hdrop⟩ := span_digits spelling.isDigit_whole hpoint
  rw [readDecimal?, body, htake, hdrop, takeFraction_fractionChars]
  simp only [if_neg spelling.isDigits.1, readExponent?_exponentChars]
  rfl

-- A digit or a point is in front.
theorem exists_body_cons : ∃ c rest, spelling.body = c :: rest ∧ (c.isDigit ∨ c = '.') := by
  have hne := spelling.isDigits.1
  have hdigits := spelling.isDigit_whole
  unfold body
  cases hwhole : spelling.whole with
  | cons c rest => exact ⟨c, _, rfl, .inl (hdigits c (by simp [hwhole]))⟩
  | nil =>
      cases hfraction : spelling.fraction with
      | none => simp [hwhole, hfraction] at hne
      | some digits => exact ⟨'.', _, rfl, .inr rfl⟩

theorem takeSign_chars : takeSign spelling.chars = (spelling.sign.negative, spelling.body) := by
  refine spelling.sign.takeSign_chars fun first hfirst => ?_
  obtain ⟨c, rest, hbody, hc⟩ := spelling.exists_body_cons
  rw [hbody] at hfirst
  cases hfirst
  constructor <;> rintro rfl <;> revert hc <;> decide

theorem isNumeralChar_of_mem : ∀ c ∈ spelling.chars, isNumeralChar c := by
  intro c hc
  rcases mem_takeSign hc with hbody | hchar
  · rw [takeSign_chars] at hbody
    exact isNumeralChar_of_readDecimal? spelling.readDecimal?_body c hbody
  · exact hchar

-- What is read is just the number that is written.
theorem read?_chars : read? spelling.chars = some (.decimal spelling.number) := by
  obtain ⟨c, rest, hbody, hc⟩ := spelling.exists_body_cons
  have hletter : c.toLower ≠ 'i' ∧ c.toLower ≠ 'n' := by
    have hchar := spelling.isNumeralChar_of_mem c (by simp [chars, hbody])
    exact Text.forall_ascii
      (motive := fun c => isNumeralChar c → c.toLower ≠ 'i' ∧ c.toLower ≠ 'n')
      (by decide +kernel) (ascii_of_isNumeralChar hchar) hchar
  have hname : ∀ (name : String) (first : Char) (more : List Char),
      name.toList = first :: more → c.toLower ≠ first →
        String.ofList (spelling.body.map Char.toLower) ≠ name := by
    rintro name first more htext hfirst rfl
    rw [String.toList_ofList, hbody] at htext
    exact hfirst (List.cons.inj htext).1
  rw [read?, takeSign_chars]
  simp only [spelling.readDecimal?_body]
  rw [if_neg, if_neg]
  · rfl
  · exact hname _ 'n' _ rfl hletter.2
  · exact not_or.mpr ⟨hname _ 'i' _ rfl hletter.1, hname _ 'i' _ rfl hletter.1⟩

end Spelling

end Verdict

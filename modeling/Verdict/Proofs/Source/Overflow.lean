import Verdict.Proofs.Number.Rounding
import Verdict.Proofs.Number.Spelling
import Verdict.Proofs.Source.Enclosed

namespace Verdict

namespace Spelling

variable (spelling : Spelling)

-- Whether a sign or a point stands anywhere in the text, which no name has.
def IsMarked : Prop := ∃ c ∈ spelling.chars, c = '+' ∨ c = '-' ∨ c = '.'

theorem exists_chars_cons : ∃ c rest, spelling.chars = c :: rest ∧
    (c.isDigit ∨ c = '-' ∨ c = '+' ∨ c = '.') := by
  obtain ⟨c, rest, hbody, hc⟩ := spelling.exists_body_cons
  rw [chars]
  cases spelling.sign with
  | absent => exact ⟨c, rest, hbody, hc.imp_right fun h => .inr (.inr h)⟩
  | plus => exact ⟨'+', _, rfl, .inr (.inr (.inl rfl))⟩
  | minus => exact ⟨'-', _, rfl, .inr (.inl rfl)⟩

-- No boolean, string or array starts with such a character.
theorem not_opening {c : Char} (hc : c.isDigit ∨ c = '-' ∨ c = '+' ∨ c = '.') :
    c ≠ 't' ∧ c ≠ 'f' ∧ c ≠ '\'' ∧ c ≠ '[' := by
  refine ⟨?_, ?_, ?_, ?_⟩ <;> rintro rfl <;> revert hc <;> decide

-- A number that is written is recognized unless it is too great to be rounded to a finite value.
theorem isNumber_chars_iff :
    Lexeme.isNumber spelling.chars ↔ spelling.number.magnitude < Binary64.overflow := by
  obtain ⟨c, rest, hchars, hc⟩ := spelling.exists_chars_cons
  have hread : Binary64.read? spelling.chars = some (Binary64.ofDecimal spelling.number) := by
    rw [Binary64.read?, read?_chars]
    rfl
  rw [← Binary64.isFinite_ofDecimal_iff, Lexeme.isNumber.eq_def, hread, hchars]
  simpa [or_assoc] using fun _ => hc

theorem isVariableName_chars_iff : Lexeme.isVariableName spelling.chars ↔ ¬spelling.IsMarked := by
  obtain ⟨first, rest, hchars, -⟩ := spelling.exists_chars_cons
  have hne : spelling.chars ≠ [] := by simp [hchars]
  have hname : ∀ c ∈ spelling.chars,
      ((c.isAlphanum || c = '_') = true ↔ ¬(c = '+' ∨ c = '-' ∨ c = '.')) := by
    intro c hc
    have hchar := spelling.isNumeralChar_of_mem c hc
    exact Text.forall_ascii
      (motive := fun c => Numeral.isNumeralChar c →
        ((c.isAlphanum || c = '_') = true ↔ ¬(c = '+' ∨ c = '-' ∨ c = '.')))
      (by decide +kernel) (Numeral.ascii_of_isNumeralChar hchar) hchar
  rw [Lexeme.isVariableName, decide_eq_true hne, Bool.true_and, List.all_eq_true, IsMarked,
    not_exists]
  refine forall_congr' fun c => ?_
  rw [not_and]
  exact forall_congr' fun hc => hname c hc

end Spelling

namespace Operand

variable {spelling : Spelling}

-- No name has a sign, and what follows a point is not the member of a name.
theorem readName_of_isMarked (hmarked : spelling.IsMarked) :
    readName spelling.chars = .error (.invalidToken (String.ofList spelling.chars)) := by
  have hname : ¬Lexeme.isVariableName spelling.chars := fun h =>
    spelling.isVariableName_chars_iff.mp h hmarked
  rw [readName, if_neg hname]
  split
  · rename_i name member hsplit
    refine if_neg fun hcount => ?_
    have hpiece : member ∈ spelling.chars.splitOn '.' := by simp [hsplit]
    have hletter : 'c' ∈ spelling.chars :=
      (Text.of_mem_splitOn hpiece).2.mem (by simp [hcount.2])
    exact absurd (spelling.isNumeralChar_of_mem 'c' hletter) (by decide)
  · rfl

theorem readBare_of_not_isNumber (hnumber : ¬Lexeme.isNumber spelling.chars)
    (following : List Token) :
    readBare spelling.chars following = (readName spelling.chars, 0) := by
  obtain ⟨c, rest, hchars, hc⟩ := spelling.exists_chars_cons
  obtain ⟨htrue, hfalse, hquote, hbracket⟩ := Spelling.not_opening hc
  rw [hchars] at hnumber ⊢
  exact readBare_eq_readName following (fun h => htrue (List.cons.inj h).1)
    (fun h => hfalse (List.cons.inj h).1) (Bool.eq_false_iff.mpr hnumber) hquote hbracket

end Operand

namespace Formula

-- What a word is read as, whatever tokens follow it. A source that has no other lexeme is read
-- alike.
def Denotes (word : List Char) (outcome : Except ParseError Formula) : Prop :=
  (∀ following, Operand.read word following = (outcome.map Entry.leaf, 0)) ∧
    ∀ source : String, Token.lexemes (Text.toLower source.toList) = [word] →
      parse source = outcome.map some

variable {spelling : Spelling}

theorem denotes_of_readBare {outcome : Except ParseError Formula}
    (hread : ∀ following,
      Operand.readBare spelling.chars following = (outcome.map Entry.leaf, 0)) :
    Denotes spelling.chars outcome := by
  obtain ⟨c, rest, hchars, hc⟩ := spelling.exists_chars_cons
  have hop := Operand.notMem_operatorChars_of_number hc
  obtain ⟨htrue, hfalse, -⟩ := Spelling.not_opening hc
  rw [hchars] at hread ⊢
  have hword : ∀ following, Operand.read (c :: rest) following = (outcome.map Entry.leaf, 0) := by
    intro following
    have hmarks := Operand.read_marks 0 rest following hop
    rw [hread following, List.replicate_zero, List.nil_append] at hmarks
    rw [hmarks]
    cases outcome <;> rfl
  refine ⟨hword, fun source hlexemes => ?_⟩
  have hsource : source ≠ "" := by
    rintro rfl
    cases hlexemes
  have hscan := Token.scan_of_ne_empty hsource
  rw [hlexemes, List.map_singleton, Token.ofLexeme_eq_word rest htrue hfalse hop] at hscan
  rw [parse_of_read hscan (hword [])]
  cases outcome <;> rfl

-- A number that is written is read as itself where it is recognized. Where it is not, it is taken
-- for a name, which it can only be without a sign and a point. Since exponents are read in full and
-- values rounded to the nearest, a number is recognized exactly below the limit of finite values.
theorem denotes_spelling (spelling : Spelling) :
    (Lexeme.isNumber spelling.chars →
        Denotes spelling.chars (.ok (.constant (.number (String.ofList spelling.chars))))) ∧
      (¬Lexeme.isNumber spelling.chars → spelling.IsMarked →
        Denotes spelling.chars (.error (.invalidToken (String.ofList spelling.chars)))) ∧
      (¬Lexeme.isNumber spelling.chars → ¬spelling.IsMarked →
        Denotes spelling.chars (.ok (.variable (String.ofList spelling.chars)))) ∧
      (Lexeme.isNumber spelling.chars ↔ spelling.number.magnitude < Binary64.overflow) := by
  refine ⟨fun hnumber => ?_, fun hnumber hmarked => ?_, fun hnumber hmarked => ?_,
    spelling.isNumber_chars_iff⟩
  · exact denotes_of_readBare fun following => Operand.readBare_of_spells (.number hnumber)
  · refine denotes_of_readBare fun following => ?_
    rw [Operand.readBare_of_not_isNumber hnumber, Operand.readName_of_isMarked hmarked]
    rfl
  · refine denotes_of_readBare fun following => ?_
    rw [Operand.readBare_of_not_isNumber hnumber, Operand.readName,
      if_pos (spelling.isVariableName_chars_iff.mpr hmarked)]
    rfl

-- Right before and right behind the limit. Without a point, the greater number is a name.
theorem denotes_spelling_limit :
    Denotes "1.7976931348623158e308".toList
        (.ok (.constant (.number "1.7976931348623158e308"))) ∧
      Denotes "1.7976931348623159e308".toList
        (.error (.invalidToken "1.7976931348623159e308")) ∧
      parse " 17976931348623159E292" = .ok (some (.variable "17976931348623159e292")) := by
  have hbelow : (Decimal.mk false 17976931348623158 292).magnitude < Binary64.overflow := by
    have hlimit : 17976931348623158 * 10 ^ 292 < Binary64.overflow := by decide +kernel
    change (17976931348623158 : ℚ) * 10 ^ ((292 : Nat) : Int) < _
    rw [zpow_natCast]
    exact_mod_cast hlimit
  have hbeyond : Binary64.overflow ≤ (Decimal.mk false 17976931348623159 292).magnitude := by
    have hlimit : Binary64.overflow ≤ 17976931348623159 * 10 ^ 292 := by decide +kernel
    change _ ≤ (17976931348623159 : ℚ) * 10 ^ ((292 : Nat) : Int)
    rw [zpow_natCast]
    exact_mod_cast hlimit
  let last : Spelling := ⟨.absent, ['1'], some "7976931348623158".toList,
    some (.absent, "308".toList), by decide, by decide⟩
  let pointed : Spelling := ⟨.absent, ['1'], some "7976931348623159".toList,
    some (.absent, "308".toList), by decide, by decide⟩
  let bare : Spelling := ⟨.absent, "17976931348623159".toList, none,
    some (.absent, "292".toList), by decide, by decide⟩
  have hlast : last.number = ⟨false, 17976931348623158, 292⟩ := by decide
  have hpointed : pointed.number = ⟨false, 17976931348623159, 292⟩ := by decide
  have hbare : bare.number = ⟨false, 17976931348623159, 292⟩ := by decide
  obtain ⟨hlastNumber, -, -, hlastLimit⟩ := denotes_spelling last
  obtain ⟨-, hpointedToken, -, hpointedLimit⟩ := denotes_spelling pointed
  obtain ⟨-, -, hbareName, hbareLimit⟩ := denotes_spelling bare
  have hpointedNot : ¬Lexeme.isNumber pointed.chars :=
    fun hnumber => (hpointedLimit.mp hnumber).not_ge (hpointed ▸ hbeyond)
  have hbareNot : ¬Lexeme.isNumber bare.chars :=
    fun hnumber => (hbareLimit.mp hnumber).not_ge (hbare ▸ hbeyond)
  have hname : ¬bare.IsMarked := bare.isVariableName_chars_iff.mp (by decide)
  exact ⟨hlastNumber (hlastLimit.mpr (hlast ▸ hbelow)),
    hpointedToken hpointedNot ⟨'.', by decide, by decide⟩,
    (hbareName hbareNot hname).2 _ (by decide)⟩

-- A power of ten far behind the limit.
theorem parse_spelling_variable :
    ∃ spelling : Spelling, String.ofList spelling.chars = "1e999" ∧
      parse "1e999" = .ok (some (.variable "1e999")) :=
  ⟨⟨.absent, ['1'], none, some (.absent, "999".toList), by decide, by decide⟩,
    rfl, rfl⟩

end Formula

end Verdict

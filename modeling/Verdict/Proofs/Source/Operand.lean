import Verdict.Proofs.Except
import Verdict.Proofs.Formula.Bracketing
import Verdict.Proofs.Number.Numeral
import Verdict.Source.Segment

namespace Verdict

namespace Entry

-- The entry whose recorded depth is that of its formula.
def ofFormula (formula : Formula) : Entry := ⟨formula, formula.depth⟩

theorem negated_ofFormula (times : Nat) (formula : Formula) :
    negated times (ofFormula formula) =
      checked (ofFormula (Nat.repeat Formula.not times formula)) := by
  simp [negated, ofFormula, Formula.depth_repeat_not]

theorem joined_ofFormula (op : Operator) (left right : Formula) :
    joined op (ofFormula left) (ofFormula right) = checked (ofFormula (.binary op left right)) :=
  rfl

theorem checked_ofFormula (formula : Formula) :
    checked (ofFormula formula) =
      if formula.depth ≤ maxDepth then .ok (ofFormula formula) else .error .nestingTooDeep := rfl

end Entry

theorem Segment.ofTokens_word (text : String) {tokens : List Token}
    {reading : Except ParseError Entry} {taken : Nat}
    (hread : Operand.read text.toList tokens = (reading, taken)) :
    ofTokens (.word text :: tokens) = .operand reading :: ofTokens (tokens.drop taken) := by
  simp only [ofTokens, group, hread]
  rw [group_eq_drop]

namespace Operand

-- The operands without exclamation marks in front, each by the text of its first word, the formula
-- it denotes and how many of the tokens that follow its literal takes up.
inductive Spells (following : List Token) : List Char → Formula → Nat → Prop
  | boolean (value : Bool) :
    Spells following (Token.bool value).text.toList (.constant (.bool value)) 0
  | number {text : List Char} (hnumber : Lexeme.isNumber text) :
    Spells following text (.constant (.number (String.ofList text))) 0
  | string {first body : List Char} {taken : Nat}
    (hbody : takeUntil? '\'' first following = some (body, taken)) :
    Spells following ('\'' :: first) (.constant (.string (String.ofList body))) taken
  | array {first body : List Char} {taken : Nat} {items : Constant}
    (hbody : takeUntil? ']' first following = some (body, taken))
    (hitems : readArray body = .ok items) :
    Spells following ('[' :: first) (.constant items) taken
  | name {name : List Char} (hname : Lexeme.isVariableName name)
    (hnumber : Lexeme.isNumber name = false) (htrue : name ≠ "true".toList)
    (hfalse : name ≠ "false".toList) :
    Spells following name (.variable (String.ofList name)) 0
  | count {name : List Char} (hname : Lexeme.isVariableName name) :
    Spells following (name ++ ".count".toList) (.count (.variable (String.ofList name))) 0

private theorem exists_cons_of_isVariableName {name : List Char}
    (hname : Lexeme.isVariableName name) :
    ∃ c rest, name = c :: rest ∧ (c.isAlphanum ∨ c = '_') := by
  cases name with
  | nil => simp [Lexeme.isVariableName] at hname
  | cons c rest =>
      simp only [Lexeme.isVariableName, List.all_cons, Bool.and_eq_true, Bool.or_eq_true,
        decide_eq_true_eq] at hname
      exact ⟨c, rest, rfl, hname.2.1⟩

private theorem notMem_of_isVariableName {name : List Char} {c : Char}
    (hname : Lexeme.isVariableName name) (hc : c.isAlphanum = false) (hunder : c ≠ '_') :
    c ∉ name := by
  intro hmem
  simp only [Lexeme.isVariableName, Bool.and_eq_true, List.all_eq_true] at hname
  simpa [hc, hunder] using hname.2 c hmem

def operatorChars : List Char := ['&', '|', '=', '!', '<', '>']

private theorem notMem_operatorChars_of_name {c : Char} (hc : c.isAlphanum ∨ c = '_') :
    c ∉ operatorChars := by
  intro hop
  simp only [operatorChars, List.mem_cons, List.not_mem_nil, or_false] at hop
  rcases hop with rfl | rfl | rfl | rfl | rfl | rfl <;> revert hc <;> decide

private theorem exists_cons_of_isNumber {text : List Char} (hnumber : Lexeme.isNumber text) :
    ∃ c rest, text = c :: rest ∧ (c.isDigit ∨ c = '-' ∨ c = '+' ∨ c = '.') := by
  cases text with
  | nil => simp [Lexeme.isNumber] at hnumber
  | cons c rest =>
      simp only [Lexeme.isNumber, Bool.and_eq_true, Bool.or_eq_true, decide_eq_true_eq] at hnumber
      exact ⟨c, rest, rfl, by simpa [or_assoc] using hnumber.1⟩

theorem notMem_operatorChars_of_number {c : Char}
    (hc : c.isDigit ∨ c = '-' ∨ c = '+' ∨ c = '.') : c ∉ operatorChars := by
  intro hop
  simp only [operatorChars, List.mem_cons, List.not_mem_nil, or_false] at hop
  rcases hop with rfl | rfl | rfl | rfl | rfl | rfl <;> revert hc <;> decide

theorem Spells.depth_le {following : List Token} {text : List Char} {formula : Formula} {taken : Nat}
    (h : Spells following text formula taken) : formula.depth ≤ 2 := by
  cases h <;> simp [Formula.depth]

-- No operand starts with a character of an operator, so the exclamation marks in front of it end
-- where it starts.
theorem Spells.exists_cons {following : List Token} {text : List Char} {formula : Formula}
    {taken : Nat} (h : Spells following text formula taken) :
    ∃ c rest, text = c :: rest ∧ c ∉ operatorChars := by
  cases h with
  | boolean value =>
      cases value with
      | true => exact ⟨'t', ['r', 'u', 'e'], by decide, by decide⟩
      | false => exact ⟨'f', ['a', 'l', 's', 'e'], by decide, by decide⟩
  | number hnumber =>
      obtain ⟨c, rest, rfl, hc⟩ := exists_cons_of_isNumber hnumber
      exact ⟨c, rest, rfl, notMem_operatorChars_of_number hc⟩
  | string hbody => exact ⟨_, _, rfl, by decide⟩
  | array hbody hitems => exact ⟨_, _, rfl, by decide⟩
  | name hname hnumber htrue hfalse =>
      obtain ⟨c, rest, rfl, hc⟩ := exists_cons_of_isVariableName hname
      exact ⟨c, rest, rfl, notMem_operatorChars_of_name hc⟩
  | count hname =>
      obtain ⟨c, rest, rfl, hc⟩ := exists_cons_of_isVariableName hname
      exact ⟨c, _, rfl, notMem_operatorChars_of_name hc⟩

private theorem isNumber_eq_false {c : Char} {rest : List Char}
    (hc : ¬(c.isDigit ∨ c = '-' ∨ c = '+' ∨ c = '.')) : Lexeme.isNumber (c :: rest) = false := by
  simp only [not_or] at hc
  simp [Lexeme.isNumber, hc]

-- A point and letters never end a number.
private theorem isNumber_count (name : List Char) :
    Lexeme.isNumber (name ++ ".count".toList) = false := by
  by_contra hnumber
  have hchar := Lexeme.isNumeralChar_of_isNumber (by simpa using hnumber) 'u' (by simp)
  exact absurd hchar (by decide)

private theorem readName_name {name : List Char} (hname : Lexeme.isVariableName name) :
    readName name = .ok (.ofFormula (.variable (String.ofList name))) := by
  rw [readName, if_pos hname]
  rfl

private theorem readName_count {name : List Char} (hname : Lexeme.isVariableName name) :
    readName (name ++ ".count".toList) = .ok (.ofFormula (.count (.variable (String.ofList name)))) := by
  have hpoint : ¬Lexeme.isVariableName (name ++ ".count".toList) := fun h =>
    notMem_of_isVariableName h (c := '.') (by decide) (by decide) (by simp)
  have hsplit : (name ++ ".count".toList).splitOn '.' = [name, "count".toList] := by
    change (name ++ '.' :: "count".toList).splitOn '.' = _
    rw [List.splitOn_append_cons_self_of_not_mem
      (notMem_of_isVariableName hname (by decide) (by decide)), List.splitOn_eq_singleton (by decide)]
  rw [readName, if_neg hpoint, hsplit]
  simp [hname, Entry.count, Entry.ofFormula, Formula.depth]

-- What is neither a literal nor the start of one is taken for a name.
theorem readBare_eq_readName {c : Char} {rest : List Char} (following : List Token)
    (htrue : c :: rest ≠ "true".toList) (hfalse : c :: rest ≠ "false".toList)
    (hnumber : Lexeme.isNumber (c :: rest) = false) (hquote : c ≠ '\'') (hbracket : c ≠ '[') :
    readBare (c :: rest) following = (readName (c :: rest), 0) := by
  unfold readBare
  rw [if_neg htrue, if_neg hfalse, if_neg (by simp [hnumber])]
  split
  · rename_i heq
    exact absurd (List.cons.inj heq).1 hquote
  · rename_i heq
    exact absurd (List.cons.inj heq).1 hbracket
  · rfl

private theorem not_opening_of_name {c : Char} (hc : c.isAlphanum ∨ c = '_') :
    c ≠ '\'' ∧ c ≠ '[' := by
  constructor
  · rintro rfl
    revert hc
    decide
  · rintro rfl
    revert hc
    decide

theorem readBare_of_spells {following : List Token} {text : List Char} {formula : Formula}
    {taken : Nat} (h : Spells following text formula taken) :
    readBare text following = (.ok (.ofFormula formula), taken) := by
  cases h with
  | boolean value => cases value <;> rfl
  | number hnumber =>
      have htrue : text ≠ "true".toList := by rintro rfl; revert hnumber; decide
      have hfalse : text ≠ "false".toList := by rintro rfl; revert hnumber; decide
      unfold readBare
      rw [if_neg htrue, if_neg hfalse, if_pos hnumber]
      rfl
  | string hbody =>
      rw [readBare, if_neg (by simp), if_neg (by simp),
        if_neg (by simp [isNumber_eq_false (c := '\'') (by decide)])]
      simp only [hbody]
      rfl
  | array hbody hitems =>
      rw [readBare, if_neg (by simp), if_neg (by simp),
        if_neg (by simp [isNumber_eq_false (c := '[') (by decide)])]
      simp only [hbody, hitems]
      rfl
  | name hname hnumber htrue hfalse =>
      obtain ⟨c, rest, rfl, hc⟩ := exists_cons_of_isVariableName hname
      obtain ⟨hquote, hbracket⟩ := not_opening_of_name hc
      rw [readBare_eq_readName following htrue hfalse hnumber hquote hbracket, readName_name hname]
  | count hname =>
      obtain ⟨c, rest, rfl, hc⟩ := exists_cons_of_isVariableName hname
      have hpoint : '.' ∈ (c :: rest) ++ ".count".toList := by simp
      have htrue : (c :: rest) ++ ".count".toList ≠ "true".toList := by
        intro h
        exact absurd (h ▸ hpoint) (by decide)
      have hfalse : (c :: rest) ++ ".count".toList ≠ "false".toList := by
        intro h
        exact absurd (h ▸ hpoint) (by decide)
      obtain ⟨hquote, hbracket⟩ := not_opening_of_name hc
      exact (readBare_eq_readName following htrue hfalse (isNumber_count (c :: rest)) hquote
        hbracket).trans (congrArg (·, 0) (readName_count hname))

private theorem spells_of_readName {following : List Token} {text : List Char} {entry : Entry}
    (hread : readName text = .ok entry) (hnumber : Lexeme.isNumber text = false)
    (htrue : text ≠ "true".toList) (hfalse : text ≠ "false".toList) :
    ∃ formula, entry = .ofFormula formula ∧ Spells following text formula 0 := by
  unfold readName at hread
  split at hread
  case isTrue hname =>
    exact ⟨_, (Except.ok.inj hread).symm, .name hname hnumber htrue hfalse⟩
  case isFalse =>
    split at hread
    case h_2 => cases hread
    case h_1 name member hsplit =>
      split at hread
      case isFalse => cases hread
      case isTrue hmember =>
        obtain ⟨hname, rfl⟩ := hmember
        have htext : name ++ ".count".toList = text := by
          have hjoin : ['.'].intercalate (text.splitOn '.') = text := List.intercalate_splitOn '.'
          rw [hsplit] at hjoin
          simpa [List.intercalate] using hjoin
        subst htext
        exact ⟨_, (Except.ok.inj hread).symm, .count hname⟩

-- An operand that can be read is one of those.
theorem spells_of_readBare {following : List Token} {text : List Char} {entry : Entry} {taken : Nat}
    (hread : readBare text following = (.ok entry, taken)) :
    ∃ formula, entry = .ofFormula formula ∧ Spells following text formula taken := by
  unfold readBare at hread
  split at hread
  case isTrue htext =>
    subst htext
    cases hread
    exact ⟨_, rfl, .boolean true⟩
  case isFalse htrue =>
  split at hread
  case isTrue htext =>
    subst htext
    cases hread
    exact ⟨_, rfl, .boolean false⟩
  case isFalse hfalse =>
  split at hread
  case isTrue hnumber =>
    cases hread
    exact ⟨_, rfl, .number hnumber⟩
  case isFalse hnumber =>
  split at hread
  · split at hread
    case h_1 body count hbody =>
      cases hread
      exact ⟨_, rfl, .string hbody⟩
    case h_2 => cases hread
  · split at hread
    case h_1 body count hbody =>
      rw [Prod.mk.injEq] at hread
      obtain ⟨harray, rfl⟩ := hread
      obtain ⟨items, hitems, rfl⟩ := Except.map_eq_ok_iff.mp harray
      exact ⟨_, rfl, .array hbody hitems⟩
    case h_2 => cases hread
  · rw [Prod.mk.injEq] at hread
    obtain ⟨hname, rfl⟩ := hread
    exact spells_of_readName hname (by simpa using hnumber) htrue hfalse

theorem takeWhile_marks (marks : Nat) {c : Char} (rest : List Char) (hc : c ≠ '!') :
    (List.replicate marks '!' ++ c :: rest).takeWhile (· = '!') = List.replicate marks '!' ∧
      (List.replicate marks '!' ++ c :: rest).dropWhile (· = '!') = c :: rest := by
  induction marks with
  | zero => simp [hc]
  | succ marks ih => simpa [List.replicate_succ] using ih

-- Exclamation marks in front of a text that does not start with an operator's character are read
-- apart from it.
theorem read_marks (marks : Nat) {c : Char} (rest : List Char) (following : List Token)
    (hc : c ∉ operatorChars) :
    read (List.replicate marks '!' ++ c :: rest) following =
      ((readBare (c :: rest) following).1.bind (Entry.negated marks),
        (readBare (c :: rest) following).2) := by
  have hmark : c ≠ '!' := by rintro rfl; exact hc (by decide)
  have hword : ¬Lexeme.isOperatorLike (List.replicate marks '!' ++ c :: rest) := by
    intro hlike
    simp only [Lexeme.isOperatorLike, Bool.and_eq_true, List.all_eq_true] at hlike
    exact hc (of_decide_eq_true (hlike.2 c (by simp)))
  obtain ⟨htake, hdrop⟩ := takeWhile_marks marks rest hmark
  rw [read, if_neg hword, hdrop, htake]
  simp only [List.length_replicate]

-- Each exclamation mark in front of an operand negates it once, and only the depth of the result
-- can be in the way.
theorem read_of_spells {following : List Token} {text : List Char} {formula : Formula}
    {taken : Nat} (h : Spells following text formula taken) (marks : Nat) :
    read (List.replicate marks '!' ++ text) following =
      (Entry.checked (.ofFormula (Nat.repeat Formula.not marks formula)), taken) := by
  obtain ⟨c, rest, rfl, hc⟩ := h.exists_cons
  rw [read_marks marks rest following hc, readBare_of_spells h, ← Entry.negated_ofFormula]
  rfl

-- The operand that tokens start with: the formula it denotes and the tokens behind it.
inductive Opens : List Token → Formula → List Token → Prop
  | bool (value : Bool) (rest : List Token) :
    Opens (.bool value :: rest) (.constant (.bool value)) rest
  | word (marks : Nat) (text : List Char) {following : List Token} {formula : Formula} {taken : Nat}
    (h : Spells following text formula taken) :
    Opens (.word (String.ofList (List.replicate marks '!' ++ text)) :: following)
      (Nat.repeat Formula.not marks formula) (following.drop taken)

theorem Opens.group {tokens rest : List Token} {formula : Formula} (h : Opens tokens formula rest) :
    Segment.ofTokens tokens =
      .operand (Entry.checked (.ofFormula formula)) :: Segment.ofTokens rest := by
  cases h with
  | bool value rest => rfl
  | word marks text hspells =>
      refine Segment.ofTokens_word _ ?_
      rw [String.toList_ofList, read_of_spells hspells]

theorem Opens.isOperand {tokens rest : List Token} {formula : Formula}
    (h : Opens tokens formula rest) : formula.isOperand := by
  cases h with
  | bool value rest => rfl
  | word marks text hspells =>
      cases marks with
      | zero => cases hspells <;> rfl
      | succ marks => rfl

end Operand

end Verdict

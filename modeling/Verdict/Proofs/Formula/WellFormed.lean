import Verdict.Proofs.Formula.Parts
import Verdict.Proofs.Number.Numeral
import Verdict.Text.LowerCase

namespace Verdict

namespace Constant

-- The text of a finite number. It cannot be taken for a name, since it starts like a number.
structure IsNumeral (text : List Char) : Prop where
  start : ∃ c rest, text = c :: rest ∧ (c.isDigit ∨ c = '-' ∨ c = '+' ∨ c = '.')
  finite : ∃ value, Binary64.read? text = some (.finite value)
  lower : Text.toLower text = text

theorem IsNumeral.isNumber {text : List Char} (h : IsNumeral text) : Lexeme.isNumber text := by
  obtain ⟨c, rest, rfl, hstart⟩ := h.start
  obtain ⟨value, hvalue⟩ := h.finite
  simp only [Lexeme.isNumber, Bool.and_eq_true, Bool.or_eq_true, decide_eq_true_eq,
    Option.any_eq_true]
  exact ⟨by simpa [or_assoc] using hstart, _, hvalue, rfl⟩

theorem IsNumeral.isNumeralChar {text : List Char} (h : IsNumeral text) :
    ∀ c ∈ text, Numeral.isNumeralChar c := Lexeme.isNumeralChar_of_isNumber h.isNumber

theorem IsNumeral.notMem {text : List Char} (h : IsNumeral text) {c : Char}
    (hc : Numeral.isNumeralChar c = false) : c ∉ text := by
  intro hmem
  have hchar := h.isNumeralChar c hmem
  rw [hc] at hchar
  cases hchar

-- A text in lower case in which each run of spaces has become a single space.
structure IsSpaced (text : List Char) : Prop where
  lower : Text.toLower text = text
  spaces : ¬[' ', ' '] <:+: text

-- The items of arrays. Their strings neither end at a comma nor close the array.
def IsItem : Constant → Prop
  | .number text => IsNumeral text.toList
  | .string text => IsSpaced text.toList ∧ ',' ∉ text.toList ∧ ¬[']', ' '] <:+: text.toList
  | _ => False

-- The constants that can be written down. No quote closes a string too early, and arrays are flat.
def IsLiteral : Constant → Prop
  | .bool _ => True
  | .nil => False
  | .number text => IsNumeral text.toList
  | .string text => IsSpaced text.toList ∧ ¬['\'', ' '] <:+: text.toList
  | .array items => ∀ item ∈ items, item.IsItem

end Constant

namespace Formula

-- Letters from a to z, digits and underscores, one or more.
def IsName (name : List Char) : Prop := name ≠ [] ∧ ∀ c ∈ name, c.isLower ∨ c.isDigit ∨ c = '_'

-- The formulas that sources denote, node by node. A negation covers no operator, only a variable is
-- counted, and a variable that is not counted cannot be taken for a boolean or a number.
def WellFormed : Formula → Prop
  | .constant value => value.IsLiteral
  | .variable name => IsName name.toList ∧ name ≠ "true" ∧ name ≠ "false" ∧
      Lexeme.isNumber name.toList = false
  | .not operand => operand.operators = [] ∧ operand.WellFormed
  | .count operand => ∃ name, operand = .variable name ∧ IsName name.toList
  | .binary _ left right => left.WellFormed ∧ right.WellFormed

theorem wellFormed_repeat_not (times : Nat) {formula : Formula} (hplain : formula.operators = [])
    (h : formula.WellFormed) : (Nat.repeat Formula.not times formula).WellFormed := by
  induction times with
  | zero => exact h
  | succ times ih => exact ⟨(operators_repeat_not times formula).trans hplain, ih⟩

-- Operators join well-formed operands to a well-formed formula.
theorem wellFormed_of_operands {formula : Formula}
    (h : ∀ operand ∈ formula.operands, operand.WellFormed) : formula.WellFormed := by
  induction formula with
  | binary op left right ihleft ihright =>
      have hleft := ihleft fun operand hmem => h operand (List.mem_append_left _ hmem)
      have hright := ihright fun operand hmem => h operand (List.mem_append_right _ hmem)
      exact ⟨hleft, hright⟩
  | _ => exact h _ List.mem_cons_self

end Formula

end Verdict

import Verdict.Proofs.Evaluation.Order
import Verdict.Proofs.Number.Denotation

namespace Verdict

theorem Constant.readNumber_of_decimal {text : List Char} {number : Decimal}
    (hread : Numeral.read? text = some (.decimal number)) :
    readNumber (String.ofList text) = .ok (Binary64.ofDecimal number) := by
  refine readNumber_of_read? ?_
  rw [String.toList_ofList, Numeral.trim_eq_self (Numeral.isNumeralChar_of_read? hread),
    Binary64.read?, hread]
  rfl

namespace Formula

-- The number that a formula has in a context: the one that a literal denotes, an integer that is
-- bound, or how many items a bound array has.
inductive Amounts (context : Context) : Formula → ℚ → Prop
  | literal {text : List Char} {value : ℚ} (hnumber : Lexeme.isNumber text)
      (hdenotes : Numeral.Denotes text value) :
      Amounts context (.constant (.number (String.ofList text))) value
  | integer {name : String} {n : Int} (hbound : context.get? name = some (.number (.integer n))) :
      Amounts context (.variable name) n
  | count {name : String} {items : List Constant} (harray : context.lookup name = .ok (.array items)) :
      Amounts context (.count (.variable name)) items.length

variable {context : Context} {formula left right : Formula} {p q : ℚ}

-- All three ways of having a number lead to a text that is read as the nearest value to it.
theorem Amounts.exists_evaluate (h : formula.Amounts context q) : ∃ (text : String) (number : Decimal),
    formula.evaluate context = .ok (.number text) ∧
      Constant.readNumber text = .ok (Binary64.ofDecimal number) ∧ number.value = q := by
  cases h with
  | literal hnumber hdenotes =>
      obtain ⟨number, hread⟩ := Lexeme.exists_decimal_of_isNumber hnumber
      exact ⟨_, number, rfl, Constant.readNumber_of_decimal hread,
        (Numeral.denotes_of_read? hread).unique hdenotes⟩
  | @integer name n hbound =>
      obtain ⟨spelling, hchars, hvalue⟩ := HostNumber.exists_spelling_integer n
      refine ⟨_, spelling.number, ?_, Constant.readNumber_of_decimal spelling.read?_chars,
        spelling.value_number.trans hvalue⟩
      rw [evaluate, Context.lookup, hbound, hchars]
      rfl
  | @count name items harray =>
      obtain ⟨spelling, hchars, hvalue⟩ := exists_spelling_toDigits .absent items.length
      refine ⟨_, spelling.number, ?_, Constant.readNumber_of_decimal spelling.read?_chars,
        spelling.value_number.trans hvalue⟩
      rw [evaluate, Context.itemCount_eq_ok_iff.mpr ⟨items, harray, rfl⟩, hchars,
        Nat.repr_eq_ofList_toDigits]
      rfl

-- Two numbers are compared as the places of the nearest values.
theorem Amounts.exists_comparesAs (hleft : left.Amounts context p) (hright : right.Amounts context q) :
    ∃ (leftValue rightValue : Constant) (leftNumber rightNumber : Decimal),
      left.evaluate context = .ok leftValue ∧ right.evaluate context = .ok rightValue ∧
        leftNumber.value = p ∧ rightNumber.value = q ∧
        leftValue.ComparesAs rightValue (Binary64.ofDecimal leftNumber).place
          (Binary64.ofDecimal rightNumber).place := by
  obtain ⟨text, number, hvalue, hread, hnumber⟩ := hleft.exists_evaluate
  obtain ⟨text', number', hvalue', hread', hnumber'⟩ := hright.exists_evaluate
  exact ⟨_, _, number, number', hvalue, hvalue', hnumber, hnumber',
    Constant.comparesAs_number hread hread'⟩

-- No comparison of two numbers contradicts their exact values, however they are spelled and
-- wherever they come from, and each text that is taken for a number denotes just one. Equal
-- numbers are equal, a lesser one is not greater, and whole numbers are told apart up to `2 ^ 53`.
theorem comparison_respects_values :
    (∀ text, Lexeme.isNumber text → ∃! value, Numeral.Denotes text value) ∧
      ∀ (context : Context) (left right : Formula) (p q : ℚ),
        left.Amounts context p → right.Amounts context q →
          ∃ leftValue rightValue, left.evaluate context = .ok leftValue ∧
            right.evaluate context = .ok rightValue ∧
            (p = q → leftValue.equals rightValue = .ok true) ∧
            (p < q → leftValue.lessEqual rightValue = .ok true ∧
              leftValue.greaterThan rightValue = .ok false) ∧
            ∀ m n : Int, p = m → q = n → |m| ≤ 2 ^ 53 → |n| ≤ 2 ^ 53 → m < n →
              leftValue.equals rightValue = .ok false ∧ leftValue.lessThan rightValue = .ok true := by
  constructor
  · intro text hnumber
    obtain ⟨number, hread⟩ := Lexeme.exists_decimal_of_isNumber hnumber
    have hdenotes := Numeral.denotes_of_read? hread
    exact ⟨_, hdenotes, fun other hother => hother.unique hdenotes⟩
  intro context left right p q hleft hright
  obtain ⟨leftValue, rightValue, leftNumber, rightNumber, heval, heval', rfl, rfl, hcompares⟩ :=
    hleft.exists_comparesAs hright
  refine ⟨leftValue, rightValue, heval, heval', fun heq => ?_, fun hlt => ?_, ?_⟩
  · rw [hcompares.equals_eq, decide_eq_true (Binary64.place_ofDecimal_eq heq)]
  · have hle := Binary64.place_ofDecimal_le hlt.le
    rw [hcompares.lessEqual_eq, hcompares.greaterThan_eq, decide_eq_true hle,
      decide_eq_false (not_lt.mpr hle)]
    exact ⟨rfl, rfl⟩
  · intro m n hm hn hsmall hsmall' hlt
    have hplaces := Binary64.place_ofDecimal_lt hm hn hsmall hsmall' hlt
    rw [hcompares.equals_eq, hcompares.lessThan_eq, decide_eq_true hplaces,
      decide_eq_false hplaces.ne]
    exact ⟨rfl, rfl⟩

-- `n` is bound to an integer that rounds to the literal before it, and `list` has three items.
theorem comparison_respects_values_rounded :
    let context := (Context.empty.insert "n" (.number (.integer 9007199254740993))).insert "list"
      (.array [.string "a", .array [], .string "a"])
    let literal := Formula.constant (.number "9007199254740992.0")
    Lexeme.isNumber "9007199254740992.0".toList ∧
      (binary .lessEqual literal (.variable "n")).evaluate context = .ok (.bool true) ∧
      (binary .greater literal (.variable "n")).evaluate context = .ok (.bool false) ∧
      (binary .equal (.count (.variable "list")) (.constant (.number "+.03E2"))).evaluate context =
        .ok (.bool true) ∧
      (binary .less (.count (.variable "list")) literal).evaluate context = .ok (.bool true) := by
  intro context literal
  obtain ⟨-, hcompare⟩ := comparison_respects_values
  have hn : Amounts context (.variable "n") (9007199254740993 : Int) := .integer rfl
  have hlist : Amounts context (.count (.variable "list")) 3 :=
    @Amounts.count _ _ [.string "a", .array [], .string "a"] rfl
  have hliteral : Amounts context literal (9007199254740992 : Int) := by
    have hvalue : (Decimal.mk false 90071992547409920 (-1)).value = (9007199254740992 : Int) := by
      norm_num [Decimal.value, Decimal.magnitude]
    exact .literal (by decide +kernel) (hvalue ▸ Numeral.denotes_of_read? (by decide +kernel))
  have hthree : Amounts context (.constant (.number "+.03E2")) 3 := by
    have hvalue : (Decimal.mk false 3 0).value = 3 := by
      norm_num [Decimal.value, Decimal.magnitude]
    exact .literal (by decide +kernel) (hvalue ▸ Numeral.denotes_of_read? (by decide +kernel))
  obtain ⟨_, _, heval, heval', -, hless, -⟩ := hcompare _ _ _ _ _ hliteral hn
  obtain ⟨hlessEqual, hgreater⟩ := hless (by norm_num)
  obtain ⟨_, _, hcount, hcount', hequal, -⟩ := hcompare _ _ _ _ _ hlist hthree
  obtain ⟨_, _, hitems, hitems', -, -, hwhole⟩ := hcompare _ _ _ _ _ hlist hliteral
  have hlessThan := (hwhole 3 9007199254740992 rfl rfl (by decide) (by decide) (by decide)).2
  exact ⟨by decide +kernel, evaluate_binary_of_ok (by decide) heval heval' hlessEqual,
    evaluate_binary_of_ok (by decide) heval heval' hgreater,
    evaluate_binary_of_ok (by decide) hcount hcount' (hequal rfl),
    evaluate_binary_of_ok (by decide) hitems hitems' hlessThan⟩

end Formula

end Verdict

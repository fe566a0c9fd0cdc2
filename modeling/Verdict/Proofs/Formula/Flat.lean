import Verdict.Proofs.Formula.WellFormed
import Verdict.Proofs.Text.LowerCase

namespace Verdict

namespace Constant

theorem itemChars_eq (items : List Constant) :
    itemChars items = [','].intercalate (items.map chars) := by
  induction items with
  | nil => rfl
  | cons item items ih =>
      cases items with
      | nil => simp [itemChars]
      | cons next items =>
          rw [itemChars, ih, List.map_cons, List.map_cons, List.map_cons,
            List.intercalate_cons_cons, List.append_assoc]
          · rfl
          · exact List.cons_ne_nil next items

theorem isLower_enclosed {opening closing : Char} {text : List Char} (hopening : Text.IsLower opening)
    (htext : ∀ c ∈ text, Text.IsLower c) (hclosing : Text.IsLower closing) :
    ∀ c ∈ opening :: (text ++ [closing]), Text.IsLower c :=
  List.forall_mem_cons.mpr
    ⟨hopening, List.forall_mem_append.mpr ⟨htext, List.forall_mem_singleton.mpr hclosing⟩⟩

theorem isLower_of_isItem {item : Constant} (h : item.IsItem) : ∀ c ∈ item.chars, Text.IsLower c := by
  cases item with
  | number text => exact Text.toLower_eq_self_iff.mp h.lower
  | string text =>
      have htext := Text.toLower_eq_self_iff.mp h.1.lower
      exact isLower_enclosed (by decide +kernel) htext (by decide +kernel)
  | _ => exact h.elim

theorem isLower_of_isLiteral {value : Constant} (h : value.IsLiteral) :
    ∀ c ∈ value.chars, Text.IsLower c := by
  cases value with
  | bool value => exact Text.toLower_eq_self_iff.mp (by cases value <;> decide +kernel)
  | nil => exact h.elim
  | number text => exact Text.toLower_eq_self_iff.mp h.lower
  | string text =>
      have htext := Text.toLower_eq_self_iff.mp h.1.lower
      exact isLower_enclosed (by decide +kernel) htext (by decide +kernel)
  | array items =>
      have hitems : ∀ c ∈ itemChars items, Text.IsLower c := by
        rw [IsLiteral] at h
        induction items with
        | nil => simp [itemChars]
        | cons item items ih =>
            obtain ⟨hitem, hmore⟩ := List.forall_mem_cons.mp h
            cases items with
            | nil => exact isLower_of_isItem hitem
            | cons next items =>
                simp only [itemChars, List.forall_mem_append, List.forall_mem_cons]
                exact ⟨isLower_of_isItem hitem, by decide +kernel, ih hmore⟩
      exact isLower_enclosed (by decide +kernel) hitems (by decide +kernel)

end Constant

namespace Formula

-- The text of a formula in the way sources are written, without brackets.
def flatChars : Formula → List Char
  | .constant value => value.chars
  | .variable name => name.toList
  | .not operand => '!' :: operand.flatChars
  | .count operand => operand.flatChars ++ ".count".toList
  | .binary op left right =>
    left.flatChars ++ ' ' :: (op.symbol.toList ++ ' ' :: right.flatChars)

def flat (formula : Formula) : String := String.ofList formula.flatChars

-- The text of an operand, and of operators that each stand in front of another operand.
def joinChars (operand : Formula) : List (Operator × Formula) → List Char
  | [] => operand.flatChars
  | (op, next) :: pairs =>
    operand.flatChars ++ ' ' :: (op.symbol.toList ++ ' ' :: joinChars next pairs)

theorem joinChars_append (operand : Formula) (pairs : List (Operator × Formula)) (op : Operator)
    (next : Formula) (more : List (Operator × Formula)) :
    joinChars operand (pairs ++ (op, next) :: more) =
      joinChars operand pairs ++ ' ' :: (op.symbol.toList ++ ' ' :: joinChars next more) := by
  induction pairs generalizing operand with
  | nil => rfl
  | cons pair pairs ih =>
      obtain ⟨other, following⟩ := pair
      rw [List.cons_append, joinChars, ih, joinChars]
      simp

-- Without brackets, only the order of operands and operators is left of a formula.
theorem flatChars_eq_joinChars (formula : Formula) :
    formula.flatChars = joinChars formula.inOrder.1 formula.inOrder.2 := by
  induction formula with
  | binary op left right ihleft ihright =>
      rw [flatChars, ihleft, ihright, ← joinChars_append]
      rfl
  | _ => rfl

theorem wellFormed_inOrder {formula : Formula} (h : formula.WellFormed) :
    formula.inOrder.1.WellFormed ∧ ∀ pair ∈ formula.inOrder.2, pair.2.WellFormed := by
  induction formula with
  | binary op left right ihleft ihright =>
      obtain ⟨hleft, hlefts⟩ := ihleft h.1
      obtain ⟨hright, hrights⟩ := ihright h.2
      refine ⟨hleft, fun pair hpair => ?_⟩
      rcases List.mem_append.mp hpair with hpair | hpair
      · exact hlefts pair hpair
      · rcases List.mem_cons.mp hpair with rfl | hpair
        · exact hright
        · exact hrights pair hpair
  | _ => exact ⟨h, by simp [inOrder]⟩

theorem isOperand_inOrder (formula : Formula) :
    formula.inOrder.1.isOperand ∧ ∀ pair ∈ formula.inOrder.2, pair.2.isOperand := by
  induction formula with
  | binary op left right ihleft ihright =>
      refine ⟨ihleft.1, fun pair hpair => ?_⟩
      rcases List.mem_append.mp hpair with hpair | hpair
      · exact ihleft.2 pair hpair
      · rcases List.mem_cons.mp hpair with rfl | hpair
        · exact ihright.1
        · exact ihright.2 pair hpair
  | _ => exact ⟨rfl, by simp [inOrder]⟩

theorem isLower_of_isName {name : List Char} (h : IsName name) : ∀ c ∈ name, Text.IsLower c :=
  fun c hc => Text.isLower_of_letter (h.2 c hc)

theorem flatChars_ne_nil {formula : Formula} (h : formula.WellFormed) : formula.flatChars ≠ [] := by
  cases formula with
  | constant value =>
      cases value with
      | bool value => cases value <;> exact List.cons_ne_nil _ _
      | nil => exact h.elim
      | number text =>
          obtain ⟨c, rest, htext, -⟩ := Constant.IsNumeral.start h
          simp [flatChars, Constant.chars, htext]
      | _ => exact List.cons_ne_nil _ _
  | «variable» name => exact h.1.1
  | _ => simp [flatChars]

-- Lower-casing leaves the text of a well-formed formula as it is.
theorem isLower_flatChars {formula : Formula} (h : formula.WellFormed) :
    ∀ c ∈ formula.flatChars, Text.IsLower c := by
  induction formula with
  | constant value => exact Constant.isLower_of_isLiteral h
  | «variable» name => exact isLower_of_isName h.1
  | not operand ih =>
      simp only [flatChars, List.forall_mem_cons]
      exact ⟨by decide +kernel, ih h.2⟩
  | count operand ih =>
      obtain ⟨name, rfl, hname⟩ := h
      simp only [flatChars, List.forall_mem_append]
      exact ⟨isLower_of_isName hname, Text.toLower_eq_self_iff.mp (by decide +kernel)⟩
  | binary op left right ihleft ihright =>
      have hop : ∀ c ∈ op.symbol.toList, Text.IsLower c :=
        Text.toLower_eq_self_iff.mp (by cases op <;> decide +kernel)
      simp only [flatChars, List.forall_mem_append, List.forall_mem_cons]
      exact ⟨ihleft h.1, by decide +kernel, hop, by decide +kernel, ihright h.2⟩

end Formula

end Verdict

import Verdict.Proofs.Evaluation.Scan

namespace Verdict

-- No host value becomes a boolean.
theorem Constant.isLogical_of_ofHost {value : HostValue} {constant : Constant}
    (hvalue : ofHost value = .ok constant) : constant.isLogical = false := by
  cases value with
  | string text =>
      cases hvalue
      rfl
  | number number =>
      cases hvalue
      rfl
  | array items =>
      rw [ofHost] at hvalue
      obtain ⟨constants, -, rfl⟩ := Except.map_eq_ok_iff.mp hvalue
      rfl
  | _ => cases hvalue

theorem Constant.isLogical_iff {constant : Constant} :
    constant.isLogical ↔ ∃ truth, constant = .bool truth := by
  cases constant <;> simp [isLogical]

namespace Formula

variable {context : Context} {name : String} {value : Constant}

theorem isLogical_of_lookup (hvalue : context.lookup name = .ok value) :
    value.isLogical = false := by
  rw [Context.lookup] at hvalue
  split at hvalue
  · exact Constant.isLogical_of_ofHost hvalue
  · cases hvalue
    rfl

theorem isLogical_of_itemCount (hvalue : context.itemCount name = .ok value) :
    value.isLogical = false := by
  obtain ⟨items, -, rfl⟩ := Context.itemCount_eq_ok_iff.mp hvalue
  rfl

-- The value that a formula has is a boolean exactly where its form says so, in every context.
theorem isLogical_of_evaluate {formula : Formula} (hvalue : formula.evaluate context = .ok value) :
    value.isLogical = formula.isLogical := by
  cases hlogical : formula.isLogical with
  | true =>
      obtain ⟨outcome, houtcome⟩ := exists_evaluate_of_isLogical context hlogical
      rw [houtcome] at hvalue
      obtain ⟨truth, -, rfl⟩ := Except.map_eq_ok_iff.mp hvalue
      rfl
  | false =>
      cases formula with
      | constant literal =>
          cases hvalue
          exact hlogical
      | «variable» name => exact isLogical_of_lookup hvalue
      | count operand =>
          cases operand with
          | «variable» name => exact isLogical_of_itemCount hvalue
          | _ => cases hvalue
      | _ => cases hlogical

-- Whether a formula has a value in a context and this value is a boolean.
def isBooleanIn (context : Context) (formula : Formula) : Bool :=
  match formula.evaluate context with
  | .ok value => value.isLogical
  | .error _ => false

theorem isBooleanIn_of_isLogical_eq_false {formula : Formula} (context : Context)
    (hlogical : formula.isLogical = false) : formula.isBooleanIn context = false := by
  rw [isBooleanIn]
  split
  · rename_i value hvalue
    rw [isLogical_of_evaluate hvalue, hlogical]
  · rfl

-- A formula that is logical by its form evaluates to true, to false or to an error in every
-- context, and one that is not evaluates to neither true nor false in any. A variable is looked at
-- in the empty context, which decides for all contexts and all that a host can bind.
theorem isLogical_exact (formula : Formula) :
    (formula.isLogical = true → ∀ context,
        (∃ truth, formula.evaluate context = .ok (.bool truth)) ∨
          ∃ error, formula.evaluate context = .error error) ∧
      (formula.isLogical = false → ∀ context truth,
        formula.evaluate context ≠ .ok (.bool truth)) ∧
      ∀ name, formula = .variable name →
        formula.isLogical = formula.isBooleanIn .empty ∧
          ∀ context, formula.isBooleanIn context = formula.isBooleanIn .empty := by
  refine ⟨fun hlogical context => ?_, fun hlogical context truth hvalue => ?_, ?_⟩
  · cases hvalue : formula.evaluate context with
    | error error => exact .inr ⟨error, rfl⟩
    | ok value =>
        have htruth : value.isLogical = true := (isLogical_of_evaluate hvalue).trans hlogical
        obtain ⟨truth, rfl⟩ := Constant.isLogical_iff.mp htruth
        exact .inl ⟨truth, rfl⟩
  · have htruth : (Constant.bool truth).isLogical = false :=
      (isLogical_of_evaluate hvalue).trans hlogical
    cases htruth
  · rintro name rfl
    have hnever : ∀ context, (Formula.variable name).isBooleanIn context = false :=
      fun context => isBooleanIn_of_isLogical_eq_false context rfl
    exact ⟨(hnever .empty).symm, fun context => (hnever context).trans (hnever .empty).symm⟩

-- A host's boolean does not make a variable true, and its negation is logical all the same.
theorem isLogical_exact_bound :
    (∀ truth, (Formula.variable "a").evaluate (Context.empty.insert "a" (.bool true)) ≠
        .ok (.bool truth)) ∧
      (Formula.variable "a").isBooleanIn (Context.empty.insert "a" (.bool true)) = false ∧
      ((∃ truth, (Formula.not (.variable "a")).evaluate (Context.empty.insert "a" (.bool true)) =
          .ok (.bool truth)) ∨
        ∃ error, (Formula.not (.variable "a")).evaluate (Context.empty.insert "a" (.bool true)) =
          .error error) := by
  have hprobe := (isLogical_exact (.variable "a")).2.2 "a" rfl
  exact ⟨(isLogical_exact (.variable "a")).2.1 rfl _, (hprobe.2 _).trans hprobe.1.symm,
    (isLogical_exact (.not (.variable "a"))).1 rfl _⟩

end Formula

end Verdict

import Verdict.Proofs.Evaluation.Attribution
import Verdict.Proofs.Evaluation.Joined

namespace Verdict

namespace Formula

-- The value of a formula if all operators alike, conjunction too, have both sides evaluated and are
-- applied to the two values.
def strict (context : Context) : Formula → Except EvalError Constant
  | .constant value => .ok value
  | .variable name => context.lookup name
  | .not operand => ((operand.strict context).bind Constant.isTrue).map fun truth => .bool (!truth)
  | .count operand =>
    match operand with
    | .variable name => context.itemCount name
    | _ => .error .typesMismatch
  | .binary op left right =>
    ((left.strict context).bind fun left => (right.strict context).bind fun right =>
      op.apply left right).map .bool

-- Whether both sides of each conjunction in a formula are true or false.
def DecidesConjunctions (context : Context) (formula : Formula) : Prop :=
  ∀ left right, binary .and left right ∈ formula.nodes →
    left.IsDecided context ∧ right.IsDecided context

section

variable {context : Context} {op : Operator} {operand left right : Formula} {value : Constant}
  {first second : Except EvalError Constant}

theorem negated_eq_ok_iff :
    ((first.bind Constant.isTrue).map fun truth => Constant.bool (!truth)) = .ok value ↔
      ∃ inner truth, first = .ok inner ∧ inner.isTrue = .ok truth ∧ value = .bool (!truth) := by
  constructor
  · intro hvalue
    obtain ⟨truth, htruth, rfl⟩ := Except.map_eq_ok_iff.mp hvalue
    obtain ⟨inner, rfl, htruth⟩ := Except.bind_eq_ok_iff.mp htruth
    exact ⟨inner, truth, rfl, htruth, rfl⟩
  · rintro ⟨inner, truth, rfl, htruth, rfl⟩
    exact congrArg _ htruth

theorem evaluate_not_eq_bind : (not operand).evaluate context =
    ((operand.evaluate context).bind Constant.isTrue).map fun truth => .bool (!truth) := by
  rw [evaluate_not, isTrue]
  simp only [Except.bind_eq_bind, Except.map_eq_bind, Except.bind_assoc, Except.ok_bind]

-- Where both sides are true or false, a conjunction has the same value if it stops early.
theorem evaluate_and_of_decided {first second : Bool}
    (hleft : left.evaluate context = .ok (.bool first))
    (hright : right.evaluate context = .ok (.bool second)) :
    (binary .and left right).evaluate context = .ok (.bool (first && second)) := by
  have htrue : right.isTrue context = .ok second := isTrue_of_evaluate hright
  rw [evaluate_and, hleft, htrue]
  cases first <;> rfl

theorem strict_and_eq_ok_iff : (binary .and left right).strict context = .ok value ↔
    ∃ first second, left.strict context = .ok (.bool first) ∧
      right.strict context = .ok (.bool second) ∧ value = .bool (first && second) := by
  rw [strict, applied_eq_ok_iff]
  constructor
  · rintro ⟨_, _, _, hleft, hright, happly, rfl⟩
    obtain ⟨first, second, rfl, rfl, rfl⟩ := Constant.and_eq_ok_iff.mp happly
    exact ⟨first, second, hleft, hright, rfl⟩
  · rintro ⟨first, second, hleft, hright, rfl⟩
    exact ⟨_, _, _, hleft, hright, rfl, rfl⟩

theorem decidesConjunctions_not :
    (not operand).DecidesConjunctions context ↔ operand.DecidesConjunctions context := by
  simp [DecidesConjunctions, nodes]

theorem decidesConjunctions_and :
    (binary .and left right).DecidesConjunctions context ↔
      (left.IsDecided context ∧ right.IsDecided context) ∧
        left.DecidesConjunctions context ∧ right.DecidesConjunctions context := by
  simp only [DecidesConjunctions, nodes, List.mem_cons, List.mem_append, binary.injEq, true_and]
  constructor
  · intro h
    exact ⟨h left right (.inl ⟨rfl, rfl⟩), fun _ _ hmem => h _ _ (.inr (.inl hmem)),
      fun _ _ hmem => h _ _ (.inr (.inr hmem))⟩
  · rintro ⟨hsides, hleft, hright⟩ _ _ (⟨rfl, rfl⟩ | hmem | hmem)
    · exact hsides
    · exact hleft _ _ hmem
    · exact hright _ _ hmem

theorem decidesConjunctions_binary (hop : op ≠ .and) :
    (binary op left right).DecidesConjunctions context ↔
      left.DecidesConjunctions context ∧ right.DecidesConjunctions context := by
  simp only [DecidesConjunctions, nodes, List.mem_cons, List.mem_append, binary.injEq, hop.symm,
    false_and, false_or]
  constructor
  · intro h
    exact ⟨fun _ _ hmem => h _ _ (.inl hmem), fun _ _ hmem => h _ _ (.inr hmem)⟩
  · rintro ⟨hleft, hright⟩ _ _ (hmem | hmem)
    · exact hleft _ _ hmem
    · exact hright _ _ hmem

end

-- Strict evaluation gives a value just where evaluation does and no conjunction in the formula
-- needs to be lazy, and then it is the same value. Induction on the formula.
theorem strict_eq_ok_iff {context : Context} {formula : Formula} {value : Constant} :
    formula.strict context = .ok value ↔
      formula.evaluate context = .ok value ∧ formula.DecidesConjunctions context := by
  induction formula generalizing value with
  | constant literal => exact (and_iff_left (by simp [DecidesConjunctions, nodes])).symm
  | «variable» name => exact (and_iff_left (by simp [DecidesConjunctions, nodes])).symm
  | not operand ih =>
      rw [strict, negated_eq_ok_iff, evaluate_not_eq_bind, negated_eq_ok_iff,
        decidesConjunctions_not]
      simp only [ih]
      constructor
      · rintro ⟨inner, truth, ⟨hinner, hdecides⟩, htruth⟩
        exact ⟨⟨inner, truth, hinner, htruth⟩, hdecides⟩
      · rintro ⟨⟨inner, truth, hinner, htruth⟩, hdecides⟩
        exact ⟨inner, truth, ⟨hinner, hdecides⟩, htruth⟩
  | count operand =>
      cases operand with
      | «variable» name => exact (and_iff_left (by simp [DecidesConjunctions, nodes])).symm
      | _ =>
          refine iff_of_false (fun hvalue => ?_) (fun hvalue => ?_)
          · cases hvalue
          · cases hvalue.1
  | binary op left right ihleft ihright =>
      by_cases hop : op = .and
      · subst hop
        rw [strict_and_eq_ok_iff, decidesConjunctions_and]
        simp only [ihleft, ihright]
        constructor
        · rintro ⟨first, second, ⟨hfirst, hdecides⟩, ⟨hsecond, hdecides'⟩, rfl⟩
          exact ⟨evaluate_and_of_decided hfirst hsecond, ⟨⟨first, hfirst⟩, second, hsecond⟩,
            hdecides, hdecides'⟩
        · rintro ⟨hvalue, ⟨⟨first, hfirst⟩, second, hsecond⟩, hdecides, hdecides'⟩
          rw [evaluate_and_of_decided hfirst hsecond] at hvalue
          exact ⟨first, second, ⟨hfirst, hdecides⟩, ⟨hsecond, hdecides'⟩,
            (Except.ok.inj hvalue).symm⟩
      · rw [strict, applied_eq_ok_iff, evaluate_binary context left right hop, applied_eq_ok_iff,
          decidesConjunctions_binary hop]
        simp only [ihleft, ihright]
        constructor
        · rintro ⟨first, second, truth, ⟨hfirst, hdecides⟩, ⟨hsecond, hdecides'⟩, happly⟩
          exact ⟨⟨first, second, truth, hfirst, hsecond, happly⟩, hdecides, hdecides'⟩
        · rintro ⟨⟨first, second, truth, hfirst, hsecond, happly⟩, hdecides, hdecides'⟩
          exact ⟨first, second, truth, ⟨hfirst, hdecides⟩, ⟨hsecond, hdecides'⟩, happly⟩

-- A value that a formula has when both sides of each conjunction are evaluated is its value. So a
-- formula without a value has none then either, and the formulas that gain a value by laziness are
-- those with a conjunction of which a side is neither true nor false.
theorem evaluate_of_strict (context : Context) (formula : Formula) :
    (∀ value, formula.strict context = .ok value → formula.evaluate context = .ok value) ∧
      (∀ error, formula.evaluate context = .error error →
        ∃ other, formula.strict context = .error other) ∧
      ∀ value, formula.evaluate context = .ok value →
        (formula.strict context = .ok value ↔ formula.DecidesConjunctions context) := by
  refine ⟨fun value hvalue => (strict_eq_ok_iff.mp hvalue).1, fun error herror => ?_,
    fun value hvalue => strict_eq_ok_iff.trans (and_iff_right hvalue)⟩
  cases hstrict : formula.strict context with
  | error other => exact ⟨other, rfl⟩
  | ok value =>
      have hvalue := (strict_eq_ok_iff.mp hstrict).1
      rw [herror] at hvalue
      cases hvalue

-- A conjunction below a negation and a disjunction that needs no laziness, one that does, and a
-- formula that has no value either way.
theorem evaluate_of_strict_nested :
    (binary .or (.not (binary .and (.not (.variable "a")) (.constant (.bool true))))
        (binary .equal (.variable "a") (.variable "b"))).evaluate .empty = .ok (.bool true) ∧
      (binary .and (.variable "a")
        (binary .equal (.count (.variable "a")) (.variable "b"))).strict .empty ≠ .ok (.bool false) ∧
      ∃ other, (binary .and (.constant (.bool true)) (.count (.variable "a"))).strict .empty =
        .error other := by
  refine ⟨(evaluate_of_strict .empty _).1 _ rfl, fun hstrict => ?_,
    (evaluate_of_strict .empty _).2.1 (.unknownVariable "a") rfl⟩
  have hdecides := ((evaluate_of_strict .empty _).2.2 (.bool false) rfl).mp hstrict
  obtain ⟨⟨truth, htruth⟩, -⟩ := hdecides _ _ (mem_nodes_self _)
  cases htruth

end Formula

end Verdict

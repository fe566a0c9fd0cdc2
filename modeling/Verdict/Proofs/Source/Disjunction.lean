import Verdict.Proofs.Evaluation.Joined
import Verdict.Proofs.Source.Condition

namespace Verdict

namespace Condition

open Formula

variable {op : Operator} {left right whole : Formula} {condition : Condition}
  {conditions taken more : List Condition}

theorem TakesIn.joins (h : TakesIn op more condition taken right) :
    Joins op right ((condition :: taken).map formula) := by
  induction h with
  | stop hstop => exact .single _
  | behind condition h ih => exact .binary (.single _) ih

-- The bracketing of a formula and of conditions behind it joins them in their order.
theorem Brackets.joins (h : Brackets op left conditions whole) {parts : List Formula}
    (hleft : Joins op left parts) : Joins op whole (parts ++ conditions.map formula) := by
  induction h generalizing parts with
  | nil whole => rwa [List.map_nil, List.append_nil]
  | cons htakes h ih =>
      have hmore := ih (hleft.binary htakes.joins)
      rwa [List.append_assoc, ← List.map_append] at hmore

end Condition

-- A disjunction of conditions has a truth value exactly where each of them evaluates to true or
-- false, and is then true where one of them is. A condition that is neither is an error wherever it
-- stands.
theorem evaluate_disjunction {source : String} {tokens : List Token} {formula : Option Formula}
    (first next : Condition) (rest : List Condition) (context : Context)
    (hscan : Token.scan source = .ok tokens)
    (hchain : Chain tokens first.head (first.tail ++ Condition.linksBy .or (next :: rest)))
    (hrest : ∀ condition ∈ next :: rest, condition.ComparesFirst)
    (hparse : Formula.parse source = .ok formula) :
    ((∃ truth, evaluate source context = .ok truth) ↔
        ∀ condition ∈ first :: next :: rest,
          ∃ truth, condition.formula.evaluate context = .ok (.bool truth)) ∧
      (∀ truth, evaluate source context = .ok truth →
        (truth = true ↔ ∃ condition ∈ first :: next :: rest,
          condition.formula.evaluate context = .ok (.bool true))) ∧
      ∀ condition ∈ first :: next :: rest,
        (∀ truth, condition.formula.evaluate context ≠ .ok (.bool truth)) →
          ∃ error, evaluate source context = .error (.evaluation error) := by
  have hjoins := (Condition.brackets_linksBy .or first.formula (next :: rest) rfl hrest).joins
    (.single first.formula)
  have hlogical := hjoins.isLogical (by simp)
  have hsource := hchain.evaluate_eq context hscan hparse
  generalize Formula.bracket first.formula _ = whole at hjoins hlogical hsource
  have htruth (truth : Bool) :
      evaluate source context = .ok truth ↔ whole.evaluate context = .ok (.bool truth) := by
    rw [hsource, Formula.evaluate_of_isLogical context hlogical]
    cases whole.isTrue context <;> simp
  have hdecided : (∃ truth, evaluate source context = .ok truth) ↔
      ∀ condition ∈ first :: next :: rest,
        ∃ truth, condition.formula.evaluate context = .ok (.bool truth) := by
    simp only [htruth]
    exact hjoins.isDecided_iff.trans (List.forall_mem_map (l := first :: next :: rest))
  refine ⟨hdecided, fun truth hvalue => ?_, fun condition hcondition hnone => ?_⟩
  · have hparts := ((hjoins.evaluate_eq_ok_iff truth).mp ((htruth truth).mp hvalue)).2
    simpa using hparts
  · cases hresult : evaluate source context with
    | ok truth =>
        obtain ⟨value, hvalue⟩ := hdecided.mp ⟨truth, hresult⟩ condition hcondition
        exact absurd hvalue (hnone value)
    | error error =>
        rw [hsource] at hresult
        obtain ⟨failed, hfailed, rfl⟩ := Except.mapError_eq_error_iff.mp hresult
        exact ⟨failed, rfl⟩

-- `b` is not bound and so neither true nor false, which counts although `true` stands in front.
-- Without it there is a truth value.
theorem evaluate_undecided_last :
    (∃ error, evaluate "true || a == nil || b" .empty = .error (.evaluation error)) ∧
      evaluate "true || a == nil" .empty = .ok true := by
  have ha {rest : List Token} : Operand.Opens (.word "a" :: rest) (.variable "a") rest :=
    .word 0 ['a'] (.name rfl rfl (by decide) (by decide))
  have hnil {rest : List Token} : Operand.Opens (.word "nil" :: rest) (.variable "nil") rest :=
    .word 0 ['n', 'i', 'l'] (.name rfl rfl (by decide) (by decide))
  have hb : Operand.Opens [.word "b"] (.variable "b") [] :=
    .word 0 ['b'] (.name rfl rfl (by decide) (by decide))
  constructor
  · have hchain : Chain [.bool true, .operator .or, .word "a", .operator .equal, .word "nil",
          .operator .or, .word "b"] (.constant (.bool true)) ([] ++ Condition.linksBy .or
        [.comparison .equal (.variable "a") (.variable "nil") rfl, .bare (.variable "b")]) :=
      .cons (.bool true _) (.cons ha (.cons hnil (.last hb)))
    refine (evaluate_disjunction (.bare (.constant (.bool true))) _ _ .empty rfl hchain
      (by simp [Condition.ComparesFirst, Formula.isLogical]) rfl).2.2 (.bare (.variable "b"))
      (by simp) fun truth hvalue => ?_
    simp [Condition.formula, Formula.evaluate, Context.lookup, Context.get?_empty] at hvalue
  · have hchain : Chain [.bool true, .operator .or, .word "a", .operator .equal, .word "nil"]
        (.constant (.bool true)) ([] ++ Condition.linksBy .or
          [.comparison .equal (.variable "a") (.variable "nil") rfl]) :=
      .cons (.bool true _) (.cons ha (.last hnil))
    have hscan : Token.scan "true || a == nil" =
        .ok [.bool true, .operator .or, .word "a", .operator .equal, .word "nil"] := rfl
    have hparse : Formula.parse "true || a == nil" = .ok (some (.binary .or (.constant (.bool true))
        (.binary .equal (.variable "a") (.variable "nil")))) := rfl
    obtain ⟨hdecided, htruth, -⟩ := evaluate_disjunction (.bare (.constant (.bool true))) _ _ .empty
      hscan hchain (by simp [Condition.ComparesFirst, Formula.isLogical]) hparse
    have heach : ∀ condition ∈ [Condition.bare (.constant (.bool true)),
        .comparison .equal (.variable "a") (.variable "nil") rfl],
          ∃ truth, condition.formula.evaluate .empty = .ok (.bool truth) :=
      List.forall_mem_cons.mpr ⟨⟨true, rfl⟩, List.forall_mem_singleton.mpr ⟨true, rfl⟩⟩
    obtain ⟨truth, hvalue⟩ := hdecided.mpr heach
    have htrue : truth = true := (htruth truth hvalue).mpr ⟨_, List.mem_cons_self, rfl⟩
    rwa [htrue] at hvalue

end Verdict

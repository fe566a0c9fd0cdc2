import Verdict.Evaluation.Basic
import Verdict.Proofs.Except

namespace Verdict

-- Items are counted just where the value of the variable is an array.
theorem Context.itemCount_eq_ok_iff {context : Context} {name : String} {constant : Constant} :
    context.itemCount name = .ok constant ↔
      ∃ items, context.lookup name = .ok (.array items) ∧
        constant = .number items.length.repr := by
  rw [itemCount, lookup]
  cases context.get? name with
  | none => simp
  | some value =>
      change (Constant.ofHost value).bind _ = _ ↔ _
      constructor
      · intro hcount
        obtain ⟨bound, hbound, hcount⟩ := Except.bind_eq_ok_iff.mp hcount
        cases bound with
        | array items =>
            cases hcount
            exact ⟨items, hbound, rfl⟩
        | _ => cases hcount
      · rintro ⟨items, hbound, rfl⟩
        simp only [hbound]
        rfl

-- Whether a constant is true or not true, rather than something that cannot be tested for truth.
def Constant.isTestable : Constant → Bool
  | .bool _ | .nil => true
  | .number _ | .string _ | .array _ => false

-- What the value of a condition decides once no other condition is left.
def Constant.verdict : Constant → Except EvalError Bool
  | .bool value => .ok value
  | .nil => .ok false
  | .number _ | .string _ | .array _ => .error .typesMismatch

theorem Constant.isTrue_eq_verdict (constant : Constant) : constant.isTrue = constant.verdict := by
  cases constant with
  | bool value => cases value <;> rfl
  | _ => simp [isTrue, equals, verdict]

namespace Formula

theorem isTrue_eq_bind (context : Context) (formula : Formula) :
    formula.isTrue context = (formula.evaluate context).bind Constant.verdict := by
  rw [isTrue]
  cases formula.evaluate context with
  | error error => rfl
  | ok value => exact value.isTrue_eq_verdict

theorem isTrue_of_evaluate {context : Context} {formula : Formula}
    {outcome : Except EvalError Bool} (houtcome : formula.evaluate context = outcome.map .bool) :
    formula.isTrue context = outcome := by
  rw [isTrue_eq_bind, houtcome]
  cases outcome <;> rfl

theorem evaluate_not (context : Context) (operand : Formula) :
    (not operand).evaluate context = ((operand.isTrue context).map (!·)).map .bool := by
  rw [evaluate, isTrue]
  simp only [Except.bind_eq_bind, Except.pure_def, Except.map_eq_bind, Except.bind_assoc,
    Except.ok_bind]

theorem evaluate_and (context : Context) (left right : Formula) :
    (binary .and left right).evaluate context =
      ((left.evaluate context).bind fun value =>
        if value = .bool true then right.isTrue context else .ok false).map .bool := by
  rw [evaluate, isTrue, Except.map_bind]
  refine congrArg (left.evaluate context).bind (funext fun value => ?_)
  by_cases htrue : value = .bool true
  · simp only [if_pos htrue, Except.bind_eq_bind, Except.pure_def, Except.map_eq_bind,
      Except.bind_assoc]
  · simp only [if_neg htrue, Except.pure_def, Except.ok_map]

theorem evaluate_binary (context : Context) {op : Operator} (left right : Formula)
    (hop : op ≠ .and) :
    (binary op left right).evaluate context =
      ((left.evaluate context).bind fun left => (right.evaluate context).bind fun right =>
        op.apply left right).map .bool := by
  have hstrict : (binary op left right).evaluate context =
      ((left.evaluate context).bind fun left => (right.evaluate context).bind fun right =>
        (op.apply left right).bind fun truth => .ok (.bool truth)) := by
    cases op with
    | and => exact absurd rfl hop
    | _ => rfl
  rw [hstrict]
  simp only [Except.map_eq_bind, Except.bind_assoc]

theorem applied_eq_ok_iff {op : Operator} {first second : Except EvalError Constant}
    {value : Constant} :
    (first.bind fun left => second.bind fun right => op.apply left right).map .bool = .ok value ↔
      ∃ leftValue rightValue truth, first = .ok leftValue ∧ second = .ok rightValue ∧
        op.apply leftValue rightValue = .ok truth ∧ value = .bool truth := by
  constructor
  · intro hvalue
    obtain ⟨truth, htruth, rfl⟩ := Except.map_eq_ok_iff.mp hvalue
    obtain ⟨leftValue, rfl, hmore⟩ := Except.bind_eq_ok_iff.mp htruth
    obtain ⟨rightValue, rfl, happly⟩ := Except.bind_eq_ok_iff.mp hmore
    exact ⟨leftValue, rightValue, truth, rfl, rfl, happly, rfl⟩
  · rintro ⟨leftValue, rightValue, truth, rfl, rfl, happly, rfl⟩
    exact congrArg _ happly

theorem evaluate_binary_of_ok {context : Context} {op : Operator} {left right : Formula}
    {leftValue rightValue : Constant} {truth : Bool} (hop : op ≠ .and)
    (hleft : left.evaluate context = .ok leftValue)
    (hright : right.evaluate context = .ok rightValue)
    (happly : op.apply leftValue rightValue = .ok truth) :
    (binary op left right).evaluate context = .ok (.bool truth) := by
  rw [evaluate_binary context left right hop, hleft, hright]
  exact congrArg (Except.map Constant.bool) happly

-- A logical formula has no value but true and false.
theorem exists_evaluate_of_isLogical (context : Context) {formula : Formula}
    (hlogical : formula.isLogical) :
    ∃ outcome : Except EvalError Bool, formula.evaluate context = outcome.map .bool := by
  cases formula with
  | constant value =>
      cases value with
      | bool value => exact ⟨.ok value, rfl⟩
      | _ => simp [isLogical, Constant.isLogical] at hlogical
  | not operand => exact ⟨_, evaluate_not context operand⟩
  | binary op left right =>
      by_cases hop : op = .and
      · subst hop
        exact ⟨_, evaluate_and context left right⟩
      · exact ⟨_, evaluate_binary context left right hop⟩
  | _ => simp [isLogical] at hlogical

theorem evaluate_of_isLogical (context : Context) {formula : Formula}
    (hlogical : formula.isLogical) :
    formula.evaluate context = (formula.isTrue context).map .bool := by
  obtain ⟨outcome, houtcome⟩ := exists_evaluate_of_isLogical context hlogical
  rw [isTrue_of_evaluate houtcome, houtcome]

-- Evaluates conditions from the first on and stops at one that is not true. That one decides false
-- if others follow it, and by its value if it is the last.
def scan (context : Context) (condition : Formula) : List Formula → Except EvalError Bool
  | [] => (condition.evaluate context).bind Constant.verdict
  | next :: rest => (condition.evaluate context).bind fun value =>
    if value = .bool true then scan context next rest else .ok false

theorem scan_nil (context : Context) (condition : Formula) :
    scan context condition [] = condition.isTrue context :=
  (isTrue_eq_bind context condition).symm

theorem scan_cons (context : Context) (condition next : Formula) (rest : List Formula) :
    scan context condition (next :: rest) = (condition.evaluate context).bind fun value =>
      if value = .bool true then scan context next rest else .ok false := rfl

-- A formula whose value, if it has one, can be tested for truth.
def IsTestable (context : Context) (formula : Formula) : Prop :=
  ∀ value, formula.evaluate context = .ok value → value.isTestable

theorem isTestable_of_isLogical (context : Context) {formula : Formula}
    (hlogical : formula.isLogical) : formula.IsTestable context := by
  intro value hvalue
  rw [evaluate_of_isLogical context hlogical] at hvalue
  obtain ⟨truth, -, rfl⟩ := Except.map_eq_ok_iff.mp hvalue
  rfl

-- A condition that can be tested stops a scan just where it is not true.
theorem scan_cons_of_isTestable {context : Context} {condition : Formula} (next : Formula)
    (rest : List Formula) (htestable : condition.IsTestable context) :
    scan context condition (next :: rest) = (condition.isTrue context).bind fun truth =>
      if truth then scan context next rest else .ok false := by
  rw [scan_cons, isTrue_eq_bind]
  cases hvalue : condition.evaluate context with
  | error error => rfl
  | ok value =>
      have hkind := htestable value hvalue
      cases value with
      | bool truth => cases truth <;> rfl
      | nil => rfl
      | _ => cases hkind

-- A conjunction in front is scanned as its two sides. Its right side is tested for truth like a last
-- condition, which must not fail where others follow it.
theorem scan_and (context : Context) (left right : Formula) (rest : List Formula)
    (hright : rest ≠ [] → right.IsTestable context) :
    scan context (.binary .and left right) rest = scan context left (right :: rest) := by
  cases rest with
  | nil => rw [scan_nil, scan_cons, scan_nil, isTrue_of_evaluate (evaluate_and context left right)]
  | cons next rest =>
      rw [scan_cons_of_isTestable next rest (isTestable_of_isLogical context rfl), scan_cons,
        isTrue_of_evaluate (evaluate_and context left right),
        scan_cons_of_isTestable next rest (hright (by simp))]
      rw [Except.bind_assoc]
      refine congrArg (left.evaluate context).bind (funext fun value => ?_)
      by_cases htrue : value = .bool true
      · rw [if_pos htrue, if_pos htrue]
      · rw [if_neg htrue, if_neg htrue]
        rfl

-- What stands in front of conditions does not matter to how these are scanned.
theorem scan_append_congr {context : Context} (condition : Formula) (before : List Formula)
    {first other : Formula} {rest others : List Formula}
    (hsame : scan context first rest = scan context other others) :
    scan context condition (before ++ first :: rest) =
      scan context condition (before ++ other :: others) := by
  induction before generalizing condition with
  | nil => rw [List.nil_append, List.nil_append, scan_cons, scan_cons, hsame]
  | cons next before ih => rw [List.cons_append, List.cons_append, scan_cons, scan_cons, ih next]

-- True conditions in front change nothing.
theorem scan_eq_of_done {context : Context} {first stop : Formula} {rest done later : List Formula}
    (hsplit : first :: rest = done ++ stop :: later)
    (hdone : ∀ condition ∈ done, condition.evaluate context = .ok (.bool true)) :
    scan context first rest = scan context stop later := by
  induction done generalizing first rest with
  | nil =>
      obtain ⟨rfl, rfl⟩ := List.cons.inj hsplit
      rfl
  | cons condition done ih =>
      rw [List.cons_append, List.cons.injEq] at hsplit
      obtain ⟨rfl, rfl⟩ := hsplit
      obtain ⟨next, more, hmore⟩ := List.exists_cons_of_ne_nil (l := done ++ stop :: later) (by simp)
      rw [hmore, scan_cons, hdone first List.mem_cons_self]
      exact ih hmore.symm fun condition hmem => hdone condition (List.mem_cons_of_mem _ hmem)

theorem scan_of_error {context : Context} {stop : Formula} {later : List Formula}
    {error : EvalError} (herror : stop.evaluate context = .error error) :
    scan context stop later = .error error := by
  cases later <;> rw [scan, herror] <;> rfl

theorem scan_of_stop {context : Context} {stop : Formula} {later : List Formula} {value : Constant}
    (hvalue : stop.evaluate context = .ok value) (hstop : value ≠ .bool true)
    (hlater : later ≠ []) : scan context stop later = .ok false := by
  obtain ⟨next, rest, rfl⟩ := List.exists_cons_of_ne_nil hlater
  rw [scan_cons, hvalue]
  exact if_neg hstop

end Formula

end Verdict

import Verdict.Proofs.Source.Chain

namespace Verdict

-- What stands between two logical operators: an operand, or two operands around an operator that
-- compares.
inductive Condition
  | bare (operand : Formula)
  | comparison (op : Operator) (left right : Formula) (hop : op.isLogical = false)

namespace Condition

open Formula

def formula : Condition → Formula
  | .bare operand => operand
  | .comparison op left right _ => .binary op left right

def head : Condition → Formula
  | .bare operand => operand
  | .comparison _ left _ _ => left

def tail : Condition → List (Operator × Formula)
  | .bare _ => []
  | .comparison op _ right _ => [(op, right)]

-- Whether a condition behind a logical operator is compared before it is joined to what stands in
-- front. A logical left operand would be joined at once.
def ComparesFirst : Condition → Prop
  | .bare _ => True
  | .comparison _ left _ _ => left.isLogical = false

-- The operators and operands of conditions that each follow the same operator.
def linksBy (op : Operator) : List Condition → List (Operator × Formula)
  | [] => []
  | condition :: rest => (op, condition.head) :: (condition.tail ++ linksBy op rest)

theorem absorb_comparison {op : Operator} (left right : Formula)
    (pairs : List (Operator × Formula)) (hop : op.isLogical = false) :
    absorb left ((op, right) :: pairs) = (.binary op left right, pairs) :=
  absorb_of_stop left (by simp [hop])

theorem bracket_condition (condition : Condition) (pairs : List (Operator × Formula)) :
    bracket condition.head (condition.tail ++ pairs) = bracket condition.formula pairs := by
  cases condition with
  | bare operand => rfl
  | comparison op left right hop =>
      have hpairs : (comparison op left right hop).tail ++ pairs = (op, right) :: pairs := rfl
      rw [hpairs, bracket_absorb, head, absorb_comparison left right pairs hop]
      rfl

-- A logical operator takes in one whole condition that is logical or the last.
theorem absorb_linksBy_of_stop (op : Operator) (left : Formula) {condition : Condition}
    {rest : List Condition} (hop : op.isLogical) (hfirst : condition.ComparesFirst)
    (hstop : condition.formula.isLogical = true ∨ rest = []) :
    absorb left (linksBy op (condition :: rest)) =
      (.binary op left condition.formula, linksBy op rest) := by
  cases condition with
  | bare operand =>
      have hlinks : linksBy op (bare operand :: rest) = (op, operand) :: linksBy op rest := rfl
      rw [hlinks]
      refine absorb_of_stop left ?_
      rcases hstop with hlogical | rfl
      · have hoperand : operand.isLogical = true := hlogical
        simp [hoperand]
      · simp [linksBy]
  | comparison comparing first second hcompares =>
      have hlinks : linksBy op (comparison comparing first second hcompares :: rest) =
          (op, first) :: (comparing, second) :: linksBy op rest := rfl
      have hlogical : first.isLogical = false := hfirst
      rw [hlinks, absorb_of_continue left (by simp [hop, hlogical]),
        absorb_comparison first second _ hcompares]
      rfl

-- Any other condition is an operand, and the next operator is applied to it first.
theorem absorb_linksBy_of_continue (op : Operator) (left : Formula) {condition : Condition}
    (next : Condition) (rest : List Condition) (hop : op.isLogical)
    (hcontinue : condition.formula.isLogical = false) :
    absorb left (linksBy op (condition :: next :: rest)) =
      (.binary op left (absorb condition.formula (linksBy op (next :: rest))).1,
        (absorb condition.formula (linksBy op (next :: rest))).2) := by
  cases condition with
  | bare operand =>
      have hoperand : operand.isLogical = false := hcontinue
      exact absorb_of_continue left (by simp [hop, hoperand, head, tail, linksBy])
  | comparison comparing first second hcompares => simp [formula, isLogical] at hcontinue

-- What a logical operator takes in as its right operand: a condition and those behind it, up to one
-- that is logical or the last, each applied to what comes after it. `more` is left.
inductive TakesIn (op : Operator) (more : List Condition) :
    Condition → List Condition → Formula → Prop
  | stop {condition : Condition} (hstop : condition.formula.isLogical = true ∨ more = []) :
    TakesIn op more condition [] condition.formula
  | behind (condition : Condition) {next : Condition} {taken : List Condition} {right : Formula}
    (h : TakesIn op more next taken right) :
    TakesIn op more condition (next :: taken) (.binary op condition.formula right)

theorem TakesIn.isLogical {op : Operator} {more taken : List Condition} {condition : Condition}
    {right : Formula} (h : TakesIn op more condition taken right) (hmore : more ≠ []) :
    right.isLogical := by
  cases h with
  | stop hstop => exact hstop.resolve_right hmore
  | behind condition h => rfl

theorem exists_absorb_linksBy (op : Operator) (left : Formula) (condition : Condition)
    (rest : List Condition) (hop : op.isLogical)
    (hconditions : ∀ other ∈ condition :: rest, other.ComparesFirst) :
    ∃ taken more right, rest = taken ++ more ∧ TakesIn op more condition taken right ∧
      absorb left (linksBy op (condition :: rest)) = (.binary op left right, linksBy op more) := by
  induction rest generalizing left condition with
  | nil =>
      exact ⟨[], [], condition.formula, rfl, .stop (.inr rfl),
        absorb_linksBy_of_stop op left hop (hconditions _ List.mem_cons_self) (.inr rfl)⟩
  | cons next rest ih =>
      cases hlogical : condition.formula.isLogical with
      | true =>
          have hfirst : condition.ComparesFirst := hconditions _ List.mem_cons_self
          exact ⟨[], next :: rest, condition.formula, rfl, .stop (.inl hlogical),
            absorb_linksBy_of_stop op left hop hfirst (.inl hlogical)⟩
      | false =>
          obtain ⟨taken, more, right, rfl, htakes, habsorb⟩ := ih condition.formula next
            fun other hother => hconditions other (List.mem_cons_of_mem _ hother)
          have hjoin := absorb_linksBy_of_continue op left next (taken ++ more) hop hlogical
          rw [habsorb] at hjoin
          exact ⟨next :: taken, more, _, rfl, htakes.behind condition, hjoin⟩

-- The bracketing of a formula and of conditions behind it: an operator takes in some of them, and
-- what it builds is in front of the others.
inductive Brackets (op : Operator) : Formula → List Condition → Formula → Prop
  | nil (whole : Formula) : Brackets op whole [] whole
  | cons {left right whole : Formula} {condition : Condition} {taken more : List Condition}
    (htakes : TakesIn op more condition taken right)
    (h : Brackets op (.binary op left right) more whole) :
    Brackets op left (condition :: (taken ++ more)) whole

theorem brackets_linksBy (op : Operator) (left : Formula) (conditions : List Condition)
    (hop : op.isLogical) (hconditions : ∀ condition ∈ conditions, condition.ComparesFirst) :
    Brackets op left conditions (bracket left (linksBy op conditions)) := by
  induction hlength : conditions.length using Nat.strongRecOn generalizing left conditions with
  | _ length ih =>
      cases conditions with
      | nil =>
          rw [linksBy, bracket_nil]
          exact .nil left
      | cons condition rest =>
          obtain ⟨taken, more, right, rfl, htakes, habsorb⟩ :=
            exists_absorb_linksBy op left condition rest hop hconditions
          rw [List.length_cons, List.length_append] at hlength
          have hrest : ∀ other ∈ more, other.ComparesFirst := fun other hother =>
            hconditions other (List.mem_cons_of_mem _ (List.mem_append_right _ hother))
          have hmore := ih more.length (by omega) (.binary op left right) more hrest rfl
          rw [bracket_absorb, habsorb]
          exact .cons htakes hmore

end Condition

-- The truth value of a source that starts with a condition is that of its bracketing.
theorem Chain.evaluate_eq {source : String} {tokens : List Token} {formula : Option Formula}
    {first : Condition} {pairs : List (Operator × Formula)} (context : Context)
    (hchain : Chain tokens first.head (first.tail ++ pairs))
    (hscan : Token.scan source = .ok tokens) (hparse : Formula.parse source = .ok formula) :
    evaluate source context =
      ((Formula.bracket first.formula pairs).isTrue context).mapError .evaluation := by
  have hformula : formula = some (Formula.bracket first.formula pairs) := by
    rw [hchain.parse_eq hscan, Formula.limited, Condition.bracket_condition] at hparse
    split at hparse
    · exact (Except.ok.inj hparse).symm
    · cases hparse
  subst hformula
  exact evaluate_of_parse hparse context

end Verdict

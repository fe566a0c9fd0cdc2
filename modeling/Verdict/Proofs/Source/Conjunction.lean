import Verdict.Proofs.Evaluation.Scan
import Verdict.Proofs.Source.Condition

namespace Verdict

namespace Condition

open Formula

variable {left right whole : Formula} {condition : Condition}
  {conditions taken more : List Condition}

-- What an `&&` takes in can be tested for truth if conditions are left behind it, so that the two
-- sides are scanned one after the other.
theorem TakesIn.scan_binary (h : TakesIn .and more condition taken right) (context : Context)
    (left : Formula) : scan context (.binary .and left right) (more.map formula) =
      scan context left (right :: more.map formula) :=
  scan_and context left right (more.map formula) fun hmore =>
    isTestable_of_isLogical context (h.isLogical (by simpa using hmore))

-- Scanning what an `&&` takes in and then what is left is scanning them all.
theorem TakesIn.scan_eq (h : TakesIn .and more condition taken right) (context : Context) :
    scan context right (more.map formula) =
      scan context condition.formula ((taken ++ more).map formula) := by
  induction h with
  | stop hstop => rfl
  | behind condition h ih =>
      rw [h.scan_binary, scan_cons, ih, List.cons_append, List.map_cons, scan_cons]

-- The bracketing of a formula and of conditions behind it is as true as scanning them says.
theorem Brackets.isTrue_eq (h : Brackets .and left conditions whole) (context : Context) :
    whole.isTrue context = scan context left (conditions.map formula) := by
  induction h with
  | nil whole => rw [List.map_nil, scan_nil]
  | cons htakes h ih =>
      rw [ih, htakes.scan_binary, scan_cons, htakes.scan_eq, List.map_cons, scan_cons]

end Condition

-- A conjunction of conditions is scanned from left to right. What follows a condition that fails or
-- is not true has no influence.
theorem evaluate_conjunction {source : String} {tokens : List Token} {formula : Option Formula}
    (first : Condition) (rest : List Condition) (context : Context)
    (hscan : Token.scan source = .ok tokens)
    (hchain : Chain tokens first.head (first.tail ++ Condition.linksBy .and rest))
    (hrest : ∀ condition ∈ rest, condition.ComparesFirst)
    (hparse : Formula.parse source = .ok formula) :
    evaluate source context =
        (Formula.scan context first.formula (rest.map Condition.formula)).mapError .evaluation ∧
      ∀ done stop later, first :: rest = done ++ stop :: later →
        (∀ condition ∈ done, condition.formula.evaluate context = .ok (.bool true)) →
          (∀ error, stop.formula.evaluate context = .error error →
            evaluate source context = .error (.evaluation error)) ∧
          ∀ value, stop.formula.evaluate context = .ok value → value ≠ .bool true → later ≠ [] →
            evaluate source context = .ok false := by
  have hvalue : evaluate source context =
      (Formula.scan context first.formula (rest.map Condition.formula)).mapError .evaluation := by
    have hbrackets := Condition.brackets_linksBy .and first.formula rest rfl hrest
    rw [hchain.evaluate_eq context hscan hparse, hbrackets.isTrue_eq]
  refine ⟨hvalue, fun done stop later hsplit hdone => ?_⟩
  have hmap : first.formula :: rest.map Condition.formula =
      done.map Condition.formula ++ stop.formula :: later.map Condition.formula := by
    have hformulas := congrArg (List.map Condition.formula) hsplit
    simpa using hformulas
  rw [hvalue, Formula.scan_eq_of_done hmap (by simpa using hdone)]
  constructor
  · intro error herror
    rw [Formula.scan_of_error herror]
    rfl
  · intro value hstop hfalse hlater
    have hmore : later.map Condition.formula ≠ [] := by simpa using hlater
    rw [Formula.scan_of_stop hstop hfalse hmore]
    rfl

-- Neither `a` nor `nil` is bound here, so counting the items of `a` would fail. A text at the end
-- is neither true nor false.
theorem evaluate_guarded_count :
    evaluate "true && a != nil && a.count == 3 && b" .empty = .ok false ∧
      evaluate "true && a == nil" .empty = .ok true ∧
      evaluate "a == nil && 'x'" .empty = .error (.evaluation .typesMismatch) := by
  have ha {rest : List Token} : Operand.Opens (.word "a" :: rest) (.variable "a") rest :=
    .word 0 ['a'] (.name rfl rfl (by decide) (by decide))
  have hnil {rest : List Token} : Operand.Opens (.word "nil" :: rest) (.variable "nil") rest :=
    .word 0 ['n', 'i', 'l'] (.name rfl rfl (by decide) (by decide))
  refine ⟨?_, ?_, ?_⟩
  · have hscan : Token.scan "true && a != nil && a.count == 3 && b" =
        .ok [.bool true, .operator .and, .word "a", .operator .notEqual, .word "nil",
          .operator .and, .word "a.count", .operator .equal, .word "3", .operator .and,
          .word "b"] := rfl
    have hcount {rest : List Token} :
        Operand.Opens (.word "a.count" :: rest) (.count (.variable "a")) rest :=
      .word 0 _ (.count (show Lexeme.isVariableName ['a'] from rfl))
    have hthree {rest : List Token} :
        Operand.Opens (.word "3" :: rest) (.constant (.number "3")) rest :=
      .word 0 ['3'] (.number (by decide +kernel))
    have hb : Operand.Opens [.word "b"] (.variable "b") [] :=
      .word 0 ['b'] (.name rfl rfl (by decide) (by decide))
    have hchain : Chain [.bool true, .operator .and, .word "a", .operator .notEqual, .word "nil",
          .operator .and, .word "a.count", .operator .equal, .word "3", .operator .and, .word "b"]
        (.constant (.bool true)) ([] ++ Condition.linksBy .and
          [.comparison .notEqual (.variable "a") (.variable "nil") rfl,
            .comparison .equal (.count (.variable "a")) (.constant (.number "3")) rfl,
            .bare (.variable "b")]) :=
      .cons (.bool true _) (.cons ha (.cons hnil (.cons hcount (.cons hthree (.last hb)))))
    have hparse := hchain.parse_eq hscan
    rw [Formula.limited_of_le (by
      simp [Condition.linksBy, Condition.head, Condition.tail, Formula.bracket, Formula.absorb,
        Formula.isLogical, Constant.isLogical, Operator.isLogical, Formula.depth, maxDepth])]
      at hparse
    have hrest : ∀ condition ∈
        [Condition.comparison .notEqual (.variable "a") (.variable "nil") rfl,
          .comparison .equal (.count (.variable "a")) (.constant (.number "3")) rfl,
          .bare (.variable "b")], condition.ComparesFirst := by
      simp [Condition.ComparesFirst, Formula.isLogical]
    have hguard := (evaluate_conjunction (.bare (.constant (.bool true))) _ .empty hscan hchain
      hrest hparse).2 [.bare (.constant (.bool true))] _ _ rfl
        (by simp [Condition.formula, Formula.evaluate])
    have hvalue : (Formula.binary .notEqual (.variable "a") (.variable "nil")).evaluate .empty =
        .ok (.bool false) := rfl
    exact hguard.2 _ hvalue (by simp) (by simp)
  · have hchain : Chain [.bool true, .operator .and, .word "a", .operator .equal, .word "nil"]
        (.constant (.bool true)) ([] ++ Condition.linksBy .and
          [.comparison .equal (.variable "a") (.variable "nil") rfl]) :=
      .cons (.bool true _) (.cons ha (.last hnil))
    exact (evaluate_conjunction (.bare (.constant (.bool true))) _ .empty rfl hchain
      (by simp [Condition.ComparesFirst, Formula.isLogical]) rfl).1
  · have hquoted : Operand.takeUntil? '\'' ['x', '\''] [] = some (['x'], 0) := rfl
    have htext : Operand.Opens [.word "'x'"] (.constant (.string "x")) [] :=
      .word 0 _ (.string hquoted)
    have hchain : Chain [.word "a", .operator .equal, .word "nil", .operator .and, .word "'x'"]
        (.variable "a") ([(.equal, .variable "nil")] ++ Condition.linksBy .and
          [.bare (.constant (.string "x"))]) :=
      .cons ha (.cons hnil (.last htext))
    exact (evaluate_conjunction (.comparison .equal (.variable "a") (.variable "nil") rfl) _ .empty
      rfl hchain (by simp [Condition.ComparesFirst]) rfl).1

end Verdict

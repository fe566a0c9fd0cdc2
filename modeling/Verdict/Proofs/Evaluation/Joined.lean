import Verdict.Proofs.Evaluation.Scan

namespace Verdict

namespace Constant

variable {left right : Constant} {truth : Bool}

-- A connective of truth values takes nothing but booleans on its sides.
theorem connective_eq_ok_iff (connective : Bool → Bool → Bool) :
    (left.toBool.bind fun first => right.toBool.bind fun second => .ok (connective first second)) =
        .ok truth ↔
      ∃ first second, left = .bool first ∧ right = .bool second ∧ truth = connective first second := by
  constructor
  · intro hvalue
    cases left with
    | bool first =>
        cases right with
        | bool second =>
            cases hvalue
            exact ⟨first, second, rfl, rfl, rfl⟩
        | _ => cases hvalue
    | _ => cases hvalue
  · rintro ⟨first, second, rfl, rfl, rfl⟩
    rfl

theorem and_eq_ok_iff : left.and right = .ok truth ↔
    ∃ first second, left = .bool first ∧ right = .bool second ∧ truth = (first && second) :=
  connective_eq_ok_iff (· && ·)

theorem or_eq_ok_iff : left.or right = .ok truth ↔
    ∃ first second, left = .bool first ∧ right = .bool second ∧ truth = (first || second) :=
  connective_eq_ok_iff (· || ·)

end Constant

namespace Formula

-- The formulas that one operator builds over parts in their order, however they are bracketed.
inductive Joins (op : Operator) : Formula → List Formula → Prop
  | single (part : Formula) : Joins op part [part]
  | binary {left right : Formula} {lefts rights : List Formula} (hleft : Joins op left lefts)
    (hright : Joins op right rights) : Joins op (.binary op left right) (lefts ++ rights)

theorem Joins.length_pos {op : Operator} {formula : Formula} {parts : List Formula}
    (h : Joins op formula parts) : 0 < parts.length := by
  induction h with
  | single part => exact Nat.one_pos
  | binary hleft hright ihleft ihright =>
      rw [List.length_append]
      omega

theorem Joins.eq_of_singleton {op : Operator} {formula part : Formula}
    (h : Joins op formula [part]) : formula = part := by
  generalize hparts : [part] = parts at h
  cases h with
  | single other => exact (List.cons.inj hparts).1.symm
  | binary hleft hright =>
      have hlength := congrArg List.length hparts
      have hlefts := hleft.length_pos
      have hrights := hright.length_pos
      rw [List.length_singleton, List.length_append] at hlength
      omega

theorem Joins.isLogical {op : Operator} {formula : Formula} {parts : List Formula}
    (h : Joins op formula parts) (hparts : 1 < parts.length) : formula.isLogical := by
  cases h with
  | single part => simp at hparts
  | binary hleft hright => rfl

variable {context : Context}

-- Both sides of a disjunction must be true or false, also where the first decides the outcome.
theorem evaluate_or_iff {left right : Formula} {truth : Bool} :
    (binary .or left right).evaluate context = .ok (.bool truth) ↔
      ∃ first second, left.evaluate context = .ok (.bool first) ∧
        right.evaluate context = .ok (.bool second) ∧ truth = (first || second) := by
  rw [evaluate_binary context left right (by decide), applied_eq_ok_iff]
  constructor
  · rintro ⟨_, _, _, hleft, hright, hor, htruth⟩
    obtain ⟨first, second, rfl, rfl, rfl⟩ := Constant.or_eq_ok_iff.mp hor
    exact ⟨first, second, hleft, hright, Constant.bool.inj htruth⟩
  · rintro ⟨first, second, hleft, hright, rfl⟩
    exact ⟨_, _, _, hleft, hright, rfl, rfl⟩

def IsDecided (context : Context) (formula : Formula) : Prop :=
  ∃ truth, formula.evaluate context = .ok (.bool truth)

variable {formula : Formula} {parts : List Formula}

-- However it is bracketed, a disjunction has a value just where all of its parts are true or false.
theorem Joins.evaluate_eq_ok_iff (h : Joins .or formula parts) (truth : Bool) :
    formula.evaluate context = .ok (.bool truth) ↔
      (∀ part ∈ parts, part.IsDecided context) ∧
        (truth = true ↔ ∃ part ∈ parts, part.evaluate context = .ok (.bool true)) := by
  induction h generalizing truth with
  | single part =>
      constructor
      · intro hvalue
        simp [IsDecided, hvalue]
      · intro ⟨hdecided, htrue⟩
        obtain ⟨value, hvalue⟩ := hdecided part (by simp)
        have hsame : truth = true ↔ value = true := by simpa [hvalue] using htrue
        rw [hvalue, Bool.eq_iff_iff.mpr hsame]
  | @binary left right lefts rights hleft hright ihleft ihright =>
      have hparts : (∃ part ∈ lefts ++ rights, part.evaluate context = .ok (.bool true)) ↔
          (∃ part ∈ lefts, part.evaluate context = .ok (.bool true)) ∨
            ∃ part ∈ rights, part.evaluate context = .ok (.bool true) := by
        simp only [List.mem_append, or_and_right, exists_or]
      rw [evaluate_or_iff, hparts, List.forall_mem_append]
      constructor
      · rintro ⟨first, second, hfirst, hsecond, rfl⟩
        obtain ⟨hlefts, hfirst⟩ := (ihleft first).mp hfirst
        obtain ⟨hrights, hsecond⟩ := (ihright second).mp hsecond
        exact ⟨⟨hlefts, hrights⟩, by rw [Bool.or_eq_true, hfirst, hsecond]⟩
      · rintro ⟨⟨hlefts, hrights⟩, htrue⟩
        classical
        refine ⟨decide (∃ part ∈ lefts, part.evaluate context = .ok (.bool true)),
          decide (∃ part ∈ rights, part.evaluate context = .ok (.bool true)),
          (ihleft _).mpr ⟨hlefts, decide_eq_true_iff⟩,
          (ihright _).mpr ⟨hrights, decide_eq_true_iff⟩, ?_⟩
        rw [Bool.eq_iff_iff, htrue, Bool.or_eq_true, decide_eq_true_iff, decide_eq_true_iff]

theorem Joins.isDecided_iff (h : Joins .or formula parts) :
    formula.IsDecided context ↔ ∀ part ∈ parts, part.IsDecided context := by
  constructor
  · rintro ⟨truth, htruth⟩
    exact ((h.evaluate_eq_ok_iff truth).mp htruth).1
  · intro hparts
    classical
    exact ⟨decide (∃ part ∈ parts, part.evaluate context = .ok (.bool true)),
      (h.evaluate_eq_ok_iff _).mpr ⟨hparts, decide_eq_true_iff⟩⟩

theorem Joins.isTestable {op : Operator} (h : Joins op formula parts)
    (hparts : ∀ part ∈ parts, part.IsTestable context) : formula.IsTestable context := by
  cases h with
  | single => exact hparts _ List.mem_cons_self
  | binary hleft hright => exact isTestable_of_isLogical context rfl

-- Scanning a conjunction is scanning its parts. The induction is on the way it is bracketed, for
-- all conditions that may follow, since a right side is scanned in front of them.
theorem Joins.exists_scan_eq (h : Joins .and formula parts)
    (hparts : ∀ part ∈ parts, part.IsTestable context) :
    ∃ first rest, parts = first :: rest ∧
      ∀ more, scan context formula more = scan context first (rest ++ more) := by
  induction h with
  | single part => exact ⟨part, [], rfl, fun _ => rfl⟩
  | @binary left right lefts rights hleft hright ihleft ihright =>
      obtain ⟨hlefts, hrights⟩ := List.forall_mem_append.mp hparts
      obtain ⟨first, before, rfl, hscanLeft⟩ := ihleft hlefts
      obtain ⟨second, after, rfl, hscanRight⟩ := ihright hrights
      refine ⟨first, before ++ second :: after, rfl, fun more => ?_⟩
      calc scan context (.binary .and left right) more
        _ = scan context left (right :: more) :=
          scan_and context left right more fun _ => hright.isTestable hrights
        _ = scan context first (before ++ right :: more) := hscanLeft _
        _ = scan context first (before ++ second :: (after ++ more)) :=
          scan_append_congr first before (hscanRight more)
        _ = scan context first ((before ++ second :: after) ++ more) := by
          rw [List.append_assoc, List.cons_append]

theorem Joins.isTrue_congr {other : Formula} (h : Joins .and formula parts)
    (hother : Joins .and other parts) (hparts : ∀ part ∈ parts, part.IsTestable context) :
    formula.isTrue context = other.isTrue context := by
  obtain ⟨first, rest, rfl, hscan⟩ := h.exists_scan_eq hparts
  obtain ⟨second, more, heq, hscanOther⟩ := hother.exists_scan_eq hparts
  obtain ⟨rfl, rfl⟩ := List.cons.inj heq
  rw [← scan_nil, ← scan_nil, hscan, hscanOther]

-- A disjunction of two or more parts that is neither true nor false is an error.
theorem Joins.exists_error (h : Joins .or formula parts) (hlength : 1 < parts.length)
    (hparts : ¬∀ part ∈ parts, part.IsDecided context) :
    ∃ error, formula.evaluate context = .error error := by
  obtain ⟨outcome, houtcome⟩ := exists_evaluate_of_isLogical context (h.isLogical hlength)
  cases outcome with
  | error error => exact ⟨error, houtcome⟩
  | ok truth => exact absurd (h.isDecided_iff.mp ⟨truth, houtcome⟩) hparts

-- How a conjunction of parts is bracketed does not change its value or its error where each part
-- that has a value is true, false or nil. How a disjunction of parts is bracketed changes at most
-- which error it is.
theorem evaluate_rebracketed {left right : Formula} {parts : List Formula} (context : Context) :
    (Joins .and left parts → Joins .and right parts →
        (∀ part ∈ parts, part.IsTestable context) →
        left.evaluate context = right.evaluate context) ∧
      (Joins .or left parts → Joins .or right parts → 2 ≤ parts.length →
        (∃ truth, left.evaluate context = .ok (.bool truth) ∧
            right.evaluate context = .ok (.bool truth)) ∨
          (∃ error, left.evaluate context = .error error) ∧
            ∃ error, right.evaluate context = .error error) := by
  constructor
  · intro hleft hright hparts
    by_cases hlength : 1 < parts.length
    · rw [evaluate_of_isLogical context (hleft.isLogical hlength),
        evaluate_of_isLogical context (hright.isLogical hlength), hleft.isTrue_congr hright hparts]
    · have hpos := hleft.length_pos
      obtain ⟨part, rfl⟩ := List.length_eq_one_iff.mp (show parts.length = 1 by omega)
      rw [hleft.eq_of_singleton, hright.eq_of_singleton]
  · intro hleft hright hlength
    by_cases hparts : ∀ part ∈ parts, part.IsDecided context
    · obtain ⟨truth, htruth⟩ := hleft.isDecided_iff.mpr hparts
      have hsame := (hleft.evaluate_eq_ok_iff truth).mp htruth
      exact .inl ⟨truth, htruth, (hright.evaluate_eq_ok_iff truth).mpr hsame⟩
    · exact .inr ⟨hleft.exists_error hlength hparts, hright.exists_error hlength hparts⟩

-- Neither `a` nor `b` is bound. The conjunction is false before the items of `b` are counted, and
-- the disjunction has an error of its own kind in each bracketing.
theorem evaluate_rebracketed_unbound :
    (binary .and (binary .and (.variable "a") (.count (.variable "b")))
          (.not (.variable "a"))).evaluate .empty =
        (binary .and (.variable "a")
          (binary .and (.count (.variable "b")) (.not (.variable "a")))).evaluate .empty ∧
      (∃ error, (binary .or (binary .or (.not (.variable "a")) (.variable "a"))
        (.count (.variable "b"))).evaluate .empty = .error error) ∧
      ∃ error, (binary .or (.not (.variable "a"))
        (binary .or (.variable "a") (.count (.variable "b")))).evaluate .empty = .error error := by
  have hleft (op : Operator) (first second third : Formula) :
      Joins op (.binary op (.binary op first second) third) [first, second, third] :=
    ((Joins.single first).binary (.single second)).binary (.single third)
  have hright (op : Operator) (first second third : Formula) :
      Joins op (.binary op first (.binary op second third)) [first, second, third] :=
    (Joins.single first).binary ((Joins.single second).binary (.single third))
  constructor
  · refine (evaluate_rebracketed .empty).1 (hleft .and _ _ _) (hright .and _ _ _) ?_
    simp only [List.forall_mem_cons]
    refine ⟨fun value hvalue => ?_, fun value hvalue => ?_, fun value hvalue => ?_, by simp⟩
    · cases hvalue
      rfl
    · cases hvalue
    · cases hvalue
      rfl
  · rcases (evaluate_rebracketed .empty).2 (hleft .or _ _ _) (hright .or (.not (.variable "a"))
      (.variable "a") (.count (.variable "b"))) (by decide) with ⟨truth, htruth, -⟩ | herrors
    · cases htruth
    · exact herrors

end Formula

end Verdict

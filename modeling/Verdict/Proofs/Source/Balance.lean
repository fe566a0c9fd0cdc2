import Verdict.Proofs.Source.Alternation
import Verdict.Proofs.Source.Assembly

namespace Verdict

namespace Segment

-- Whether an operand is logical. One that cannot be read is not.
def isLogical : Segment → Bool
  | .operand (.ok entry) => entry.formula.isLogical
  | _ => false

def IsReadable : Segment → Prop
  | .operand (.error _) => False
  | _ => True

-- Which segments may follow. Of those before, `pending` is the operator that the next operand
-- reaches first, and `balance` says by how many the operands outnumber the operators. A logical
-- operator lets operands that are not logical wait. Each other operand ends all waiting, for which
-- the operands must outnumber the operators.
def Balanced (pending : Option Operator) (balance : Int) : List Segment → Prop
  | [] => pending = none ∧ balance = 1
  | .operator op :: rest => Balanced (some op) (balance - 1) rest
  | .operand reading :: rest =>
    if pending.any Operator.isLogical && !(operand reading).isLogical && !rest.isEmpty then
      Balanced pending (balance + 1) rest
    else 0 ≤ balance ∧ Balanced none (balance + 1) rest

def Complete (segments : List Segment) : Prop :=
  segments.head?.any isOperand ∧ Balanced none 0 segments

theorem Balanced.balance_add {pending : Option Operator} {balance : Int} {segments : List Segment}
    (h : Balanced pending balance segments) :
    balance + operandCount segments = operatorCount segments + 1 := by
  induction segments generalizing pending balance with
  | nil => simpa [operandCount, operatorCount] using h.2
  | cons segment rest ih =>
      cases segment with
      | operator op =>
          have hrest := ih h
          simp only [operandCount, operatorCount]
          omega
      | operand reading =>
          have hrest : balance + 1 + operandCount rest = operatorCount rest + 1 := by
            rw [Balanced] at h
            split at h
            · exact ih h
            · exact ih h.2
          simp only [operandCount, operatorCount]
          omega

theorem Balanced.getLast {pending : Option Operator} {balance : Int} {segments : List Segment}
    (h : Balanced pending balance segments) :
    (segments = [] ∧ pending = none) ∨ segments.getLast?.any isOperand := by
  induction segments generalizing pending balance with
  | nil => exact .inl ⟨rfl, h.1⟩
  | cons segment rest ih =>
      have hrest : ∃ pending' balance', Balanced pending' balance' rest ∧
          (segment.isOperand = false → pending' ≠ none) := by
        cases segment with
        | operator op => exact ⟨_, _, h, by simp⟩
        | operand reading =>
            rw [Balanced] at h
            split at h
            · exact ⟨_, _, h, by simp [isOperand]⟩
            · exact ⟨_, _, h.2, by simp [isOperand]⟩
      obtain ⟨pending', balance', hbalanced, hpending⟩ := hrest
      right
      rcases ih hbalanced with ⟨rfl, hnone⟩ | hlast
      · by_contra hoperand
        exact hpending (by simpa using hoperand) hnone
      · cases rest with
        | nil => simp at hlast
        | cons next rest => simpa using hlast

end Segment

def Frame.op : Frame → Operator
  | .opened op => op
  | .extending op _ => op

namespace Assembly

open Segment

-- How many of the waiting operators still have their left operands on the stack.
def openedCount : List Frame → Nat
  | [] => 0
  | .opened _ :: frames => openedCount frames + 1
  | .extending _ _ :: frames => openedCount frames

-- Joining two entries makes a logical one, or it is too deep.
theorem joined_cases (op : Operator) (left right : Entry) :
    Entry.joined op left right = .error .nestingTooDeep ∨
      ∃ whole, Entry.joined op left right = .ok whole ∧ whole.formula.isLogical := by
  rw [Entry.joined, Entry.checked]
  split
  · exact .inr ⟨_, rfl, rfl⟩
  · exact .inl rfl

theorem settle_join_cases {more : Bool} {frame : Frame} {stack rest : List Entry}
    {op : Operator} {left right : Entry} (frames : List Frame) (nesting : Nat)
    (htake : takeOperands frame stack = .ok (op, left, right, rest))
    (hwait : (op.isLogical && !right.formula.isLogical && more) = false) :
    settle more (frame :: frames) stack nesting = .error .nestingTooDeep ∨
      ∃ whole, whole.formula.isLogical ∧ settle more (frame :: frames) stack nesting =
        settle more frames (whole :: rest) (nesting - 1) := by
  rw [settle_of_join frames nesting htake hwait]
  rcases joined_cases op left right with hdeep | ⟨whole, hwhole, hlogical⟩
  · exact .inl (by rw [hdeep]; rfl)
  · exact .inr ⟨whole, hlogical, by rw [hwhole]; rfl⟩

-- An operand at which no operator goes on waiting ends all waiting, if the stack has a left operand
-- for each operator that still needs one.
theorem settle_all (more : Bool) (frames : List Frame) (entry : Entry) (stack : List Entry)
    (nesting : Nat) (hwait : ∀ frame ∈ frames.head?,
      (frame.op.isLogical && !entry.formula.isLogical && more) = false) :
    settle more frames (entry :: stack) nesting = .error .nestingTooDeep ∨
      (∃ result nesting', settle more frames (entry :: stack) nesting = .ok ⟨result, [], nesting'⟩ ∧
          result ≠ [] ∧ result.length + openedCount frames = stack.length + 1) ∨
      (stack.length < openedCount frames ∧
        settle more frames (entry :: stack) nesting = .error .invalidExpression) := by
  induction frames generalizing entry stack nesting with
  | nil => exact .inr (.inl ⟨_, _, rfl, by simp, rfl⟩)
  | cons frame frames ih =>
      have hwait := hwait frame rfl
      cases frame with
      | opened op =>
          cases stack with
          | nil => exact .inr (.inr ⟨by simp [openedCount], settle_of_error frames nesting rfl⟩)
          | cons left stack =>
              have htake : takeOperands (.opened op) (entry :: left :: stack) =
                  .ok (op, left, entry, stack) := rfl
              rcases settle_join_cases frames nesting htake hwait with
                hdeep | ⟨whole, hlogical, hsettle⟩
              · exact .inl hdeep
              · rw [hsettle]
                have hrest := ih whole stack (nesting - 1) (by simp [hlogical])
                simpa only [openedCount, List.length_cons, ← Nat.add_assoc, Nat.add_right_cancel_iff,
                  Nat.add_lt_add_iff_right] using hrest
      | extending op left =>
          have htake : takeOperands (.extending op left) (entry :: stack) =
              .ok (op, left, entry, stack) := rfl
          rcases settle_join_cases frames nesting htake hwait with
            hdeep | ⟨whole, hlogical, hsettle⟩
          · exact .inl hdeep
          · rw [hsettle]
            exact ih whole stack (nesting - 1) (by simp [hlogical])

-- The operator that the next operand reaches first, and by how many the operands read so far
-- outnumber the operators.
structure Matches (state : Assembly) (pending : Option Operator) (balance : Int) : Prop where
  pending_eq : state.frames.head?.map Frame.op = pending
  balance_eq : balance = state.stack.length - openedCount state.frames
  stack_ne_nil : state.stack ≠ []

-- Whether a formula is read exactly where a condition holds, apart from what is too deep.
def Decides (result : Except ParseError Formula) (condition : Prop) : Prop :=
  result ≠ .error .nestingTooDeep → ((∃ formula, result = .ok formula) ↔ condition)

theorem decides_of_error {error : ParseError} {condition : Prop} (hcondition : ¬condition) :
    Decides (.error error) condition := by
  intro _
  constructor
  · rintro ⟨formula, hformula⟩
    cases hformula
  · exact fun h => absurd h hcondition

theorem decides_nestingTooDeep (condition : Prop) : Decides (.error .nestingTooDeep) condition :=
  fun hne => absurd rfl hne

-- What can follow a state is read without error.
def Accepts (pending : Option Operator) (balance : Int) (segments : List Segment) : Prop :=
  (∀ segment ∈ segments, segment.IsReadable) ∧ Segment.Balanced pending balance segments

theorem accepts_operator (pending : Option Operator) (balance : Int) (op : Operator)
    (rest : List Segment) :
    Accepts pending balance (.operator op :: rest) ↔ Accepts (some op) (balance - 1) rest := by
  simp [Accepts, IsReadable, Segment.Balanced]

theorem accepts_operand (pending : Option Operator) (balance : Int) (entry : Entry)
    (rest : List Segment) :
    Accepts pending balance (.operand (.ok entry) :: rest) ↔
      if pending.any Operator.isLogical && !entry.formula.isLogical && !rest.isEmpty then
        Accepts pending (balance + 1) rest
      else 0 ≤ balance ∧ Accepts none (balance + 1) rest := by
  rw [Accepts, Segment.Balanced, isLogical]
  split <;> simp [Accepts, IsReadable, and_left_comm]

theorem finish_decides {state : Assembly} {pending : Option Operator} {balance : Int}
    (h : state.Matches pending balance) : Decides state.finish (Accepts pending balance []) := by
  obtain ⟨stack, frames, nesting⟩ := state
  obtain ⟨hpending, hbalance, hstack⟩ := h
  cases frames with
  | cons frame frames =>
      refine decides_of_error fun haccepts => ?_
      have hnone : pending = none := haccepts.2.1
      simp [hnone] at hpending
  | nil =>
      have hbalance : balance = stack.length := by simpa [openedCount] using hbalance
      match stack with
      | [] => exact absurd rfl hstack
      | [entry] =>
          exact fun _ => ⟨fun _ => ⟨by simp, hpending.symm, hbalance⟩, fun _ => ⟨_, rfl⟩⟩
      | first :: second :: rest =>
          refine decides_of_error fun haccepts => ?_
          have hone : balance = 1 := haccepts.2.2
          simp only [List.length_cons] at hbalance
          omega

-- An operator that waits on has its left operand by then.
theorem settle_extending {more : Bool} {frame : Frame} {entry : Entry} {stack : List Entry}
    (frames : List Frame) (nesting : Nat) (hstack : stack ≠ [])
    (hwait : (frame.op.isLogical && !entry.formula.isLogical && more) = true) :
    ∃ left rest, settle more (frame :: frames) (entry :: stack) nesting =
        .ok ⟨entry :: rest, .extending frame.op left :: frames, nesting⟩ ∧
      rest.length + openedCount (frame :: frames) = stack.length + openedCount frames := by
  cases frame with
  | opened op =>
      obtain ⟨left, rest, rfl⟩ := List.exists_cons_of_ne_nil hstack
      have htake : takeOperands (.opened op) (entry :: left :: rest) =
          .ok (op, left, entry, rest) := rfl
      refine ⟨left, rest, settle_of_wait frames nesting htake hwait, ?_⟩
      simp only [openedCount, List.length_cons]
      omega
  | extending op left =>
      have htake : takeOperands (.extending op left) (entry :: stack) =
          .ok (op, left, entry, stack) := rfl
      exact ⟨left, stack, settle_of_wait frames nesting htake hwait, rfl⟩

-- A logical operator waits on when it reaches an operand that is not logical.
theorem settle_pending {more : Bool} {state : Assembly} {pending : Option Operator} {balance : Int}
    {entry : Entry} (h : state.Matches pending balance)
    (hwait : (pending.any Operator.isLogical && !entry.formula.isLogical && more) = true) :
    ∃ next : Assembly,
      settle more state.frames (entry :: state.stack) state.nesting = .ok next ∧
        next.Matches pending (balance + 1) := by
  obtain ⟨stack, frames, nesting⟩ := state
  obtain ⟨rfl, hbalance, hstack⟩ := h
  cases frames with
  | nil => simp at hwait
  | cons frame frames =>
      obtain ⟨left, rest, hsettle, hlength⟩ := settle_extending frames nesting hstack hwait
      refine ⟨_, hsettle, rfl, ?_, by simp⟩
      dsimp only at hbalance hlength
      simp only [openedCount, List.length_cons]
      omega

theorem run_decides (segments : List Segment) {state : Assembly} {pending : Option Operator}
    {balance : Int} (h : state.Matches pending balance) :
    Decides ((state.run segments).bind finish) (Accepts pending balance segments) := by
  induction segments generalizing state pending balance with
  | nil => exact finish_decides h
  | cons segment rest ih =>
      by_cases hdeep : maxDepth ≤ state.nesting
      · rw [run_of_le segment rest hdeep]
        exact decides_nestingTooDeep _
      have hnesting := Nat.not_le.mp hdeep
      cases segment with
      | operator op =>
          have hnext : Matches ⟨state.stack, .opened op :: state.frames, state.nesting + 1⟩
              (some op) (balance - 1) :=
            ⟨rfl, by simp only [openedCount, h.balance_eq]; omega, h.stack_ne_nil⟩
          rw [run_operator op rest hnesting, accepts_operator]
          exact ih hnext
      | operand reading =>
          rw [run_operand reading rest hnesting]
          cases reading with
          | error error =>
              exact decides_of_error fun haccepts => haccepts.1 _ List.mem_cons_self
          | ok entry =>
              rw [accepts_operand, Except.ok_bind]
              cases hwait : (pending.any Operator.isLogical && !entry.formula.isLogical &&
                !rest.isEmpty) with
              | true =>
                  obtain ⟨next, hsettle, hnext⟩ := settle_pending h hwait
                  rw [if_pos rfl, hsettle]
                  exact ih hnext
              | false =>
                  have hbalance := h.balance_eq
                  have hframe : ∀ frame ∈ state.frames.head?,
                      (frame.op.isLogical && !entry.formula.isLogical && !rest.isEmpty) = false := by
                    intro frame hframe
                    rw [← h.pending_eq, hframe] at hwait
                    exact hwait
                  rw [if_neg Bool.false_ne_true]
                  rcases settle_all _ state.frames entry state.stack state.nesting hframe with
                    htoo | ⟨result, nesting', hsettle, hne, hlength⟩ | ⟨hshort, hsettle⟩
                  · rw [htoo]
                    exact decides_nestingTooDeep _
                  · have hnext : Matches ⟨result, [], nesting'⟩ none (balance + 1) :=
                      ⟨rfl, by simp only [openedCount]; omega, hne⟩
                    have hpos : 0 < result.length := List.length_pos_of_ne_nil hne
                    have hsides := ih hnext
                    rw [hsettle]
                    exact fun hdeep => (hsides hdeep).trans ⟨fun ha => ⟨by omega, ha⟩, And.right⟩
                  · rw [hsettle]
                    exact decides_of_error fun haccepts => by omega

-- Nothing can be read behind an operator that has no left operand.
theorem run_opened_ne_ok (segments : List Segment) (op : Operator) (frames : List Frame)
    (nesting : Nat) (formula : Formula) :
    ((Assembly.run ⟨[], .opened op :: frames, nesting⟩ segments).bind finish) ≠ .ok formula := by
  induction segments generalizing op frames nesting with
  | nil => intro h; cases h
  | cons segment rest ih =>
      by_cases hdeep : maxDepth ≤ nesting
      · rw [run_of_le segment rest hdeep]
        intro h; cases h
      have hnesting := Nat.not_le.mp hdeep
      cases segment with
      | operator next =>
          rw [run_operator next rest hnesting]
          exact ih next _ _
      | operand reading =>
          rw [run_operand reading rest hnesting]
          cases reading with
          | error error => intro h; cases h
          | ok entry =>
              have htake : takeOperands (.opened op) [entry] = .error .invalidExpression := rfl
              rw [Except.ok_bind, settle_of_error frames nesting htake]
              intro h; cases h

theorem ofSegments_decides (segments : List Segment) :
    Decides (Formula.ofSegments segments)
      ((∀ segment ∈ segments, segment.IsReadable) ∧ Complete segments) := by
  cases segments with
  | nil => exact decides_of_error fun h => by simp [Complete] at h
  | cons segment rest =>
      cases segment with
      | operator op =>
          have hrun := run_opened_ne_ok rest op [] 1
          intro _
          constructor
          · rintro ⟨formula, hformula⟩
            exact absurd hformula (hrun formula)
          · rintro ⟨-, hhead, -⟩
            simp [isOperand] at hhead
      | operand reading =>
          cases reading with
          | error error =>
              exact decides_of_error fun h => h.1 _ List.mem_cons_self
          | ok entry =>
              have hmatches : Matches ⟨[entry], [], 0⟩ none 1 := ⟨rfl, rfl, by simp⟩
              have hrest := run_decides rest hmatches
              have haccepts := accepts_operand none 0 entry rest
              simp only [Option.any_none, Bool.false_and, Bool.false_eq_true, if_false,
                Int.le_refl, true_and, Int.zero_add] at haccepts
              have hcomplete : (∀ segment ∈ Segment.operand (.ok entry) :: rest, segment.IsReadable) ∧
                  Complete (.operand (.ok entry) :: rest) ↔ Accepts none 1 rest := by
                rw [← haccepts, Accepts, Complete]
                simp [isOperand]
              rw [hcomplete]
              exact hrest

end Assembly

namespace Segment

theorem ofTokens_iff_complete (tokens : List Token) :
    (∃ tree, Formula.ofTokens tokens = .ok (some tree)) ↔
      (∀ segment ∈ ofTokens tokens, segment.IsReadable) ∧ Complete (ofTokens tokens) ∧
        Formula.ofTokens tokens ≠ .error .nestingTooDeep := by
  have hdecides := Assembly.ofSegments_decides (ofTokens tokens)
  rw [Formula.ofTokens]
  split
  · rename_i hnil
    subst hnil
    simp [Complete, ofTokens, group]
  cases hresult : Formula.ofSegments (ofTokens tokens) with
  | ok formula =>
      rw [hresult] at hdecides
      have hcomplete := (hdecides (by simp)).mp ⟨formula, rfl⟩
      exact ⟨fun _ => ⟨hcomplete.1, hcomplete.2, by simp⟩, fun _ => ⟨formula, rfl⟩⟩
  | error error =>
      rw [hresult] at hdecides
      constructor
      · rintro ⟨tree, htree⟩
        cases htree
      · rintro ⟨hreadable, hcomplete, hdeep⟩
        have hne : (.error error : Except ParseError Formula) ≠ .error .nestingTooDeep := by
          intro h
          cases h
          exact hdeep rfl
        obtain ⟨formula, hformula⟩ := (hdecides hne).mpr ⟨hreadable, hcomplete⟩
        cases hformula

-- A source denotes a formula exactly where its operands can be read, its segments are complete and
-- nothing is too deep. Such segments start and end with an operand and have one more operand than
-- operators, so they alternate unless two operators, and then also two operands, are adjacent.
theorem parse_iff_complete {source : String} {tokens : List Token}
    (hscan : Token.scan source = .ok tokens) :
    ((∃ tree, Formula.parse source = .ok (some tree)) ↔
        (∀ segment ∈ ofTokens tokens, segment.IsReadable) ∧ Complete (ofTokens tokens) ∧
          Formula.parse source ≠ .error .nestingTooDeep) ∧
      ((∀ tree, Formula.parse source = .ok (some tree) → Alternates (ofTokens tokens)) ↔
        ((∀ segment ∈ ofTokens tokens, segment.IsReadable) ∧ Complete (ofTokens tokens) ∧
          Formula.parse source ≠ .error .nestingTooDeep → NoAdjacentOperators (ofTokens tokens))) ∧
      ((∃ tree, Formula.parse source = .ok (some tree)) →
        (ofTokens tokens).head?.any isOperand ∧ (ofTokens tokens).getLast?.any isOperand ∧
          operandCount (ofTokens tokens) = operatorCount (ofTokens tokens) + 1 ∧
          (NoAdjacentOperators (ofTokens tokens) ↔ NoAdjacentOperands (ofTokens tokens))) := by
  have hiff := ofTokens_iff_complete tokens
  rw [← Formula.parse_of_scan hscan] at hiff
  have hfacts : (∃ tree, Formula.parse source = .ok (some tree)) →
      (ofTokens tokens).head?.any isOperand ∧ (ofTokens tokens).getLast?.any isOperand ∧
        operandCount (ofTokens tokens) = operatorCount (ofTokens tokens) + 1 := by
    intro htree
    obtain ⟨-, ⟨hhead, hbalanced⟩, -⟩ := hiff.mp htree
    have hcount := hbalanced.balance_add
    refine ⟨hhead, ?_, by omega⟩
    rcases hbalanced.getLast with ⟨hnil, -⟩ | hlast
    · simp [hnil] at hhead
    · exact hlast
  refine ⟨hiff, ⟨fun h hcomplete => ?_, fun h tree htree => ?_⟩, fun htree => ?_⟩
  · obtain ⟨tree, htree⟩ := hiff.mpr hcomplete
    obtain ⟨hhead, hlast, hcount⟩ := hfacts ⟨tree, htree⟩
    exact (alternates_iff_noAdjacentOperators hhead hlast hcount).mp (h tree htree)
  · obtain ⟨hhead, hlast, hcount⟩ := hfacts ⟨tree, htree⟩
    exact (alternates_iff_noAdjacentOperators hhead hlast hcount).mpr (h (hiff.mp ⟨tree, htree⟩))
  · obtain ⟨hhead, hlast, hcount⟩ := hfacts htree
    exact ⟨hhead, hlast, hcount, (alternates_iff_noAdjacentOperators hhead hlast hcount).symm.trans
      (alternates_iff_noAdjacentOperands hhead hlast hcount)⟩

theorem parse_iff_complete_adjacent :
    Complete (ofTokens [.word "a", .word "b", .operator .equal, .operator .equal, .word "c"]) ∧
      ¬NoAdjacentOperators
        (ofTokens [.word "a", .word "b", .operator .equal, .operator .equal, .word "c"]) := by
  have hscan : Token.scan "a b == == c" =
      .ok [.word "a", .word "b", .operator .equal, .operator .equal, .word "c"] := rfl
  obtain ⟨hiff, halternates, -⟩ := parse_iff_complete hscan
  have hcomplete := hiff.mp ⟨_, rfl⟩
  refine ⟨hcomplete.2.1, fun h => ?_⟩
  exact halternates.mpr (fun _ => h) _ rfl

-- Surplus operands and operators can make up for each other.
theorem parse_not_alternates :
    Formula.parse "a b == == c" =
        .ok (some (.binary .equal (.variable "a") (.binary .equal (.variable "b") (.variable "c")))) ∧
      ∃ tokens, Token.scan "a b == == c" = .ok tokens ∧ ¬Alternates (ofTokens tokens) := by
  refine ⟨rfl, _, rfl, ?_⟩
  intro h
  exact h

end Segment

end Verdict

import Mathlib.Data.List.Chain
import Verdict.Source.Segment

namespace Verdict.Segment

def isOperand : Segment → Bool
  | .operand _ => true
  | .operator _ => false

-- Operands and operators by turns, an operand first and last.
def Alternates : List Segment → Prop
  | [.operand _] => True
  | .operand _ :: .operator _ :: rest => Alternates rest
  | _ => False

def operandCount : List Segment → Nat
  | [] => 0
  | .operand _ :: rest => operandCount rest + 1
  | .operator _ :: rest => operandCount rest

def operatorCount : List Segment → Nat
  | [] => 0
  | .operand _ :: rest => operatorCount rest
  | .operator _ :: rest => operatorCount rest + 1

def NoAdjacentOperators (segments : List Segment) : Prop :=
  segments.IsChain fun segment next => segment.isOperand ∨ next.isOperand

def NoAdjacentOperands (segments : List Segment) : Prop :=
  segments.IsChain fun segment next => ¬(segment.isOperand ∧ next.isOperand)

theorem Alternates.exists_cons {segments : List Segment} (h : Alternates segments) :
    ∃ reading rest, segments = .operand reading :: rest := by
  fun_cases Alternates segments with
  | case1 reading => exact ⟨reading, [], rfl⟩
  | case2 reading op rest => exact ⟨reading, _, rfl⟩
  | case3 => simp_all [Alternates]

theorem Alternates.isChain {segments : List Segment} (h : Alternates segments) :
    segments.IsChain fun segment next => segment.isOperand ≠ next.isOperand := by
  fun_induction Alternates segments with
  | case1 reading => exact .singleton _
  | case2 reading op rest ih =>
      obtain ⟨next, rest, rfl⟩ := h.exists_cons
      exact .cons_cons (by simp [isOperand]) (.cons_cons (by simp [isOperand]) (ih h))
  | case3 => exact h.elim

-- Without adjacent operators, segments that end with an operand have too many operands rather than
-- too few.
theorem operatorCount_le {segments : List Segment} (h : NoAdjacentOperators segments)
    (hlast : segments.getLast?.any isOperand) :
    operatorCount segments + (if segments.head?.any isOperand then 1 else 0) ≤
      operandCount segments := by
  induction segments with
  | nil => simp at hlast
  | cons segment rest ih =>
      cases rest with
      | nil =>
          cases segment with
          | operand reading => simp [operatorCount, operandCount, isOperand]
          | operator op => simp [isOperand] at hlast
      | cons next rest =>
          have hchain := List.isChain_cons_cons.mp h
          have hrest := ih hchain.2 (by simpa using hlast)
          cases segment with
          | operand reading =>
              rw [operatorCount, operandCount, List.head?_cons, Option.any_some, isOperand, if_pos rfl]
              omega
          | operator op =>
              have hnext : next.isOperand := by simpa [isOperand] using hchain.1
              rw [List.head?_cons, Option.any_some, hnext, if_pos rfl] at hrest
              rw [operatorCount, operandCount]
              simpa [isOperand] using hrest

-- Without adjacent operands it is the other way round.
theorem operandCount_le {segments : List Segment} (h : NoAdjacentOperands segments) :
    operandCount segments ≤
      operatorCount segments + (if segments.head?.any isOperand then 1 else 0) := by
  induction segments with
  | nil => simp [operandCount]
  | cons segment rest ih =>
      have hrest := ih h.tail
      cases segment with
      | operand reading =>
          have hhead : rest.head?.any isOperand = false := by
            cases rest with
            | nil => rfl
            | cons next rest => simpa [isOperand] using (List.isChain_cons_cons.mp h).1
          rw [hhead, if_neg Bool.false_ne_true] at hrest
          rw [operatorCount, operandCount, List.head?_cons, Option.any_some, isOperand, if_pos rfl]
          omega
      | operator op =>
          rw [operatorCount, operandCount]
          split at hrest <;> omega

theorem alternates_iff_noAdjacentOperators {segments : List Segment}
    (hhead : segments.head?.any isOperand) (hlast : segments.getLast?.any isOperand)
    (hcount : operandCount segments = operatorCount segments + 1) :
    Alternates segments ↔ NoAdjacentOperators segments := by
  refine ⟨fun h => h.isChain.imp fun segment next hne => ?_, fun h => ?_⟩
  · cases hsegment : segment.isOperand <;> simp_all
  fun_induction Alternates segments with
  | case1 reading => trivial
  | case2 reading op rest ih =>
      have hchain := (List.isChain_cons_cons.mp h).2
      simp only [operandCount, operatorCount] at hcount
      cases rest with
      | nil => simp [isOperand] at hlast
      | cons next rest =>
          have hnext := List.isChain_cons_cons.mp hchain
          exact ih (by simpa [isOperand] using hnext.1) (by simpa using hlast) (by omega) hnext.2
  | case3 segments hone htwo =>
      -- two operands in front would leave too many operands
      match segments with
      | [] => simp at hhead
      | .operator op :: rest => simp [isOperand] at hhead
      | [.operand reading] => exact hone reading rfl
      | .operand reading :: .operator op :: rest => exact htwo reading op rest rfl
      | .operand reading :: .operand next :: rest =>
          have hle := operatorCount_le (List.isChain_cons_cons.mp h).2 (by simpa using hlast)
          simp [operandCount, operatorCount, isOperand] at hle hcount
          omega

theorem alternates_iff_noAdjacentOperands {segments : List Segment}
    (hhead : segments.head?.any isOperand) (hlast : segments.getLast?.any isOperand)
    (hcount : operandCount segments = operatorCount segments + 1) :
    Alternates segments ↔ NoAdjacentOperands segments := by
  refine ⟨fun h => h.isChain.imp fun segment next hne => ?_, fun h => ?_⟩
  · cases hsegment : segment.isOperand <;> simp_all
  fun_induction Alternates segments with
  | case1 reading => trivial
  | case2 reading op rest ih =>
      have hchain := (List.isChain_cons_cons.mp h).2
      have hle : operandCount rest ≤ operatorCount rest +
          (if rest.head?.any isOperand then 1 else 0) := operandCount_le hchain.tail
      simp only [operandCount, operatorCount] at hcount
      cases rest with
      | nil => simp [isOperand] at hlast
      | cons next rest =>
          have hnext : next.isOperand := by
            by_contra hoperator
            rw [List.head?_cons, Option.any_some, if_neg hoperator] at hle
            omega
          exact ih (by simpa using hnext) (by simpa using hlast) (by omega) hchain.tail
  | case3 segments hone htwo =>
      match segments with
      | [] => simp at hhead
      | .operator op :: rest => simp [isOperand] at hhead
      | [.operand reading] => exact hone reading rfl
      | .operand reading :: .operator op :: rest => exact htwo reading op rest rfl
      | .operand reading :: .operand next :: rest =>
          exact (List.isChain_cons_cons.mp h).1 ⟨rfl, rfl⟩

end Verdict.Segment

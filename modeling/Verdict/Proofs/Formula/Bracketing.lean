import Mathlib.Data.List.Infix
import Verdict.Formula.Basic

namespace Verdict.Formula

-- One application of an operator to the formula before it. A right operand that is not logical
-- takes in one application of its own first, unless the operator compares or nothing follows.
def absorb (left : Formula) : List (Operator × Formula) → Formula × List (Operator × Formula)
  | [] => (left, [])
  | (op, operand) :: rest =>
    if !op.isLogical || operand.isLogical || rest.isEmpty then (.binary op left operand, rest)
    else (.binary op left (absorb operand rest).1, (absorb operand rest).2)

theorem absorb_of_stop (left : Formula) {op : Operator} {operand : Formula}
    {rest : List (Operator × Formula)}
    (hstop : (!op.isLogical || operand.isLogical || rest.isEmpty) = true) :
    absorb left ((op, operand) :: rest) = (.binary op left operand, rest) := by
  rw [absorb, if_pos hstop]

theorem absorb_of_continue (left : Formula) {op : Operator} {operand : Formula}
    {rest : List (Operator × Formula)}
    (hstop : (!op.isLogical || operand.isLogical || rest.isEmpty) = false) :
    absorb left ((op, operand) :: rest) =
      (.binary op left (absorb operand rest).1, (absorb operand rest).2) := by
  rw [absorb, if_neg (by simp [hstop])]

theorem absorb_suffix (left : Formula) (pair : Operator × Formula)
    (rest : List (Operator × Formula)) : (absorb left (pair :: rest)).2 <:+ rest := by
  induction rest generalizing left pair with
  | nil => simp [absorb]
  | cons next rest ih =>
      obtain ⟨op, operand⟩ := pair
      rw [absorb]
      split
      · exact List.suffix_refl _
      · exact (ih operand next).trans (List.suffix_cons next rest)

-- The formula of a chain: applications from left to right until none is left.
def bracket (left : Formula) (pairs : List (Operator × Formula)) : Formula :=
  match pairs with
  | [] => left
  | pair :: rest => bracket (absorb left (pair :: rest)).1 (absorb left (pair :: rest)).2
termination_by pairs.length
decreasing_by
  have hle := (absorb_suffix left pair rest).length_le
  simp only [List.length_cons]
  omega

theorem bracket_nil (left : Formula) : bracket left [] = left := by rw [bracket]

theorem bracket_absorb (left : Formula) (pairs : List (Operator × Formula)) :
    bracket left pairs = bracket (absorb left pairs).1 (absorb left pairs).2 := by
  cases pairs with
  | nil => rw [absorb]
  | cons pair rest => rw [bracket]

theorem bracket_induction {motive : Formula → List (Operator × Formula) → Prop}
    (nil : ∀ left, motive left [])
    (absorb : ∀ left pair rest,
      motive (absorb left (pair :: rest)).1 (absorb left (pair :: rest)).2 →
        motive left (pair :: rest))
    (left : Formula) (pairs : List (Operator × Formula)) : motive left pairs := by
  induction hlength : pairs.length using Nat.strongRecOn generalizing left pairs with
  | _ length ih =>
      cases pairs with
      | nil => exact nil left
      | cons pair rest =>
          have hle := (absorb_suffix left pair rest).length_le
          simp only [List.length_cons] at hlength
          exact absorb _ _ _ (ih _ (by omega) _ _ rfl)

-- Applies the operators that wait for one right operand, the innermost first.
def close : List (Operator × Formula) → Formula → Formula
  | [], right => right
  | (op, left) :: held, right => close held (.binary op left right)

theorem depth_close (held : List (Operator × Formula)) (right : Formula) :
    right.depth + held.length ≤ (close held right).depth := by
  induction held generalizing right with
  | nil => simp [close]
  | cons pair held ih =>
      obtain ⟨op, left⟩ := pair
      have hclose := ih (.binary op left right)
      simp only [depth] at hclose
      simp only [close, List.length_cons]
      omega

theorem depth_le_absorb (left : Formula) (pairs : List (Operator × Formula)) :
    left.depth ≤ (absorb left pairs).1.depth := by
  cases pairs with
  | nil => exact Nat.le_refl _
  | cons pair rest =>
      rw [absorb]
      split <;> simp only [depth] <;> omega

-- An application joins the formula before it to the next operand, or to a part around that operand.
theorem exists_absorb_eq_binary (left : Formula) (op : Operator) (operand : Formula)
    (rest : List (Operator × Formula)) :
    ∃ right, (absorb left ((op, operand) :: rest)).1 = .binary op left right ∧
      operand.depth ≤ right.depth := by
  rw [absorb]
  split
  · exact ⟨operand, rfl, Nat.le_refl _⟩
  · exact ⟨(absorb operand rest).1, rfl, depth_le_absorb operand rest⟩

theorem depth_le_bracket (left : Formula) (pairs : List (Operator × Formula)) :
    left.depth ≤ (bracket left pairs).depth := by
  induction left, pairs using bracket_induction with
  | nil left => rw [bracket_nil]
  | absorb left pair rest ih =>
      rw [bracket_absorb]
      exact Nat.le_trans (depth_le_absorb left (pair :: rest)) ih

-- Whether no operator joins two parts of a formula at its top.
def isOperand : Formula → Bool
  | .binary _ _ _ => false
  | _ => true

-- The operands and operators of a formula from left to right.
def inOrder : Formula → Formula × List (Operator × Formula)
  | .binary op left right =>
    (left.inOrder.1, left.inOrder.2 ++ (op, right.inOrder.1) :: right.inOrder.2)
  | formula => (formula, [])

theorem inOrder_of_isOperand {formula : Formula} (hoperand : formula.isOperand) :
    formula.inOrder = (formula, []) := by
  cases formula with
  | binary op left right => simp [isOperand] at hoperand
  | _ => rfl

theorem inOrder_absorb (left : Formula) (pairs : List (Operator × Formula))
    (hoperands : ∀ pair ∈ pairs, pair.2.isOperand) :
    (absorb left pairs).1.inOrder.1 = left.inOrder.1 ∧
      (absorb left pairs).1.inOrder.2 ++ (absorb left pairs).2 = left.inOrder.2 ++ pairs := by
  induction pairs generalizing left with
  | nil => simp [absorb]
  | cons pair rest ih =>
      obtain ⟨op, operand⟩ := pair
      have hoperand := inOrder_of_isOperand (hoperands _ List.mem_cons_self)
      rw [absorb]
      split
      · simp [inOrder, hoperand]
      · obtain ⟨hfirst, hrest⟩ := ih operand fun pair hpair =>
          hoperands pair (List.mem_cons_of_mem _ hpair)
        rw [hoperand] at hfirst hrest
        simp only [inOrder, hfirst, List.append_assoc, List.cons_append, hrest, List.nil_append,
          and_self]

-- Bracketing keeps the order of the source.
theorem inOrder_bracket (left : Formula) (pairs : List (Operator × Formula))
    (hoperands : ∀ pair ∈ pairs, pair.2.isOperand) :
    (bracket left pairs).inOrder = (left.inOrder.1, left.inOrder.2 ++ pairs) := by
  induction left, pairs using bracket_induction with
  | nil left => simp [bracket_nil]
  | absorb left pair rest ih =>
      have hsuffix := (absorb_suffix left pair rest).trans (List.suffix_cons pair rest)
      have hrest := ih fun pair hpair => hoperands pair (hsuffix.mem hpair)
      obtain ⟨hfirst, happend⟩ := inOrder_absorb left (pair :: rest) hoperands
      rw [bracket_absorb, hrest, hfirst, happend]

-- A right operand stands for itself, or it has been continued: then a logical operator stands
-- before it, and it is one application whose own left side is an operand that is not logical.
def ContinuesOnce : Formula → Prop
  | .binary op left right =>
    left.ContinuesOnce ∧ right.ContinuesOnce ∧
      (right.isOperand ∨
        op.isLogical ∧ ∃ next operand last, right = .binary next operand last ∧
          operand.isOperand ∧ operand.isLogical = false)
  | _ => True

theorem continuesOnce_of_isOperand {formula : Formula} (hoperand : formula.isOperand) :
    formula.ContinuesOnce := by
  cases formula with
  | binary op left right => simp [isOperand] at hoperand
  | _ => trivial

theorem continuesOnce_absorb (left : Formula) (pairs : List (Operator × Formula))
    (hleft : left.ContinuesOnce) (hoperands : ∀ pair ∈ pairs, pair.2.isOperand) :
    (absorb left pairs).1.ContinuesOnce := by
  induction pairs generalizing left with
  | nil => exact hleft
  | cons pair rest ih =>
      obtain ⟨op, operand⟩ := pair
      have hoperand : operand.isOperand := hoperands _ List.mem_cons_self
      have honce := continuesOnce_of_isOperand hoperand
      cases hstop : (!op.isLogical || operand.isLogical || rest.isEmpty) with
      | true =>
          rw [absorb_of_stop left hstop]
          exact ⟨hleft, honce, .inl hoperand⟩
      | false =>
          rw [absorb_of_continue left hstop]
          have hright := ih operand honce fun pair hpair =>
            hoperands pair (List.mem_cons_of_mem _ hpair)
          simp only [Bool.or_eq_false_iff, Bool.not_eq_false'] at hstop
          obtain ⟨⟨hlogical, hnot⟩, hmore⟩ := hstop
          obtain ⟨⟨next, following⟩, rest, rfl⟩ :=
            List.exists_cons_of_ne_nil (by simpa using hmore)
          obtain ⟨last, hlast, -⟩ := exists_absorb_eq_binary operand next following rest
          exact ⟨hleft, hright, .inr ⟨hlogical, next, operand, last, hlast, hoperand, hnot⟩⟩

theorem continuesOnce_bracket (left : Formula) (pairs : List (Operator × Formula))
    (hleft : left.ContinuesOnce) (hoperands : ∀ pair ∈ pairs, pair.2.isOperand) :
    (bracket left pairs).ContinuesOnce := by
  induction left, pairs using bracket_induction with
  | nil left => rwa [bracket_nil]
  | absorb left pair rest ih =>
      have hsuffix := (absorb_suffix left pair rest).trans (List.suffix_cons pair rest)
      rw [bracket_absorb]
      exact ih (continuesOnce_absorb left (pair :: rest) hleft hoperands) fun pair hpair =>
        hoperands pair (hsuffix.mem hpair)

end Verdict.Formula

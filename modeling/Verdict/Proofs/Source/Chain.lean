import Verdict.Proofs.Source.Assembly
import Verdict.Proofs.Source.Operand

namespace Verdict

-- The tokens of an operand and of pairs that each consist of an operator and an operand.
inductive Chain : List Token → Formula → List (Operator × Formula) → Prop
  | last {tokens : List Token} {operand : Formula} (hoperand : Operand.Opens tokens operand []) :
    Chain tokens operand []
  | cons {tokens rest : List Token} {operand next : Formula} {op : Operator}
    {pairs : List (Operator × Formula)}
    (hoperand : Operand.Opens tokens operand (.operator op :: rest)) (hrest : Chain rest next pairs) :
    Chain tokens operand ((op, next) :: pairs)

namespace Chain

variable {tokens : List Token} {operand : Formula} {pairs : List (Operator × Formula)}

def segments : List (Operator × Formula) → List Segment
  | [] => []
  | (op, operand) :: rest =>
    .operator op :: .operand (Entry.checked (.ofFormula operand)) :: segments rest

theorem ofTokens_eq (h : Chain tokens operand pairs) :
    Segment.ofTokens tokens = .operand (Entry.checked (.ofFormula operand)) :: segments pairs := by
  induction h with
  | last hoperand => exact hoperand.group
  | cons hoperand hrest ih =>
      rw [hoperand.group, segments, ← ih]
      rfl

theorem isOperand (h : Chain tokens operand pairs) :
    operand.isOperand ∧ ∀ pair ∈ pairs, pair.2.isOperand := by
  induction h with
  | last hoperand => exact ⟨hoperand.isOperand, by simp⟩
  | cons hoperand hrest ih =>
      refine ⟨hoperand.isOperand, fun pair hpair => ?_⟩
      rcases List.mem_cons.mp hpair with rfl | hrest
      · exact ih.1
      · exact ih.2 pair hrest

theorem ne_nil (h : Chain tokens operand pairs) : tokens ≠ [] := by
  rintro rfl
  cases h <;> rename_i hoperand <;> cases hoperand

end Chain

-- A formula unless it is too deep.
def Formula.limited (formula : Formula) : Except ParseError Formula :=
  if formula.depth ≤ maxDepth then .ok formula else .error .nestingTooDeep

theorem Formula.limited_of_le {formula : Formula} (hdepth : formula.depth ≤ maxDepth) :
    formula.limited = .ok formula := if_pos hdepth

theorem Formula.limited_of_lt {formula : Formula} (hdepth : maxDepth < formula.depth) :
    formula.limited = .error .nestingTooDeep := if_neg (Nat.not_le.mpr hdepth)

namespace Assembly

open Formula

def heldFrames (held : List (Operator × Formula)) : List Frame :=
  held.map fun pair => .extending pair.1 (.ofFormula pair.2)

theorem heldFrames_cons (op : Operator) (left : Formula) (held : List (Operator × Formula)) :
    heldFrames ((op, left) :: held) = .extending op (.ofFormula left) :: heldFrames held := rfl

-- The state in which operators with their left operands wait for the one formula on the stack to
-- be extended.
def holding (held : List (Operator × Formula)) (current : Formula) : Assembly :=
  ⟨[.ofFormula current], heldFrames held, held.length⟩

-- The formula of such a state and the pairs that are still to be read.
def resumed (held : List (Operator × Formula)) (current : Formula)
    (pairs : List (Operator × Formula)) : Formula :=
  bracket (close held (absorb current pairs).1) (absorb current pairs).2

theorem depth_le_resumed (held : List (Operator × Formula)) (current : Formula)
    (pairs : List (Operator × Formula)) :
    (absorb current pairs).1.depth + held.length ≤ (resumed held current pairs).depth :=
  Nat.le_trans (depth_close held _) (depth_le_bracket _ _)

theorem resumed_nil (current : Formula) (pairs : List (Operator × Formula)) :
    resumed [] current pairs = bracket current pairs := (bracket_absorb current pairs).symm

-- A logical formula ends the waiting of all operators that hold their left operands.
theorem settle_heldFrames (more : Bool) (held : List (Operator × Formula)) {whole : Formula}
    (nesting : Nat) (hlogical : whole.isLogical) (hdepth : whole.depth ≤ maxDepth) :
    settle more (heldFrames held) [.ofFormula whole] nesting =
      if (close held whole).depth ≤ maxDepth then
        .ok ⟨[.ofFormula (close held whole)], [], nesting - held.length⟩
      else .error .nestingTooDeep := by
  induction held generalizing whole nesting with
  | nil => simp [heldFrames, settle, close, hdepth]
  | cons pair held ih =>
      obtain ⟨op, left⟩ := pair
      have hwait : (op.isLogical && !(Entry.ofFormula whole).formula.isLogical && more) = false := by
        simp [Entry.ofFormula, hlogical]
      have htake : takeOperands (.extending op (.ofFormula left)) [.ofFormula whole] =
          .ok (op, .ofFormula left, .ofFormula whole, []) := rfl
      rw [heldFrames_cons, settle_of_join _ _ htake hwait, Entry.joined_ofFormula,
        Entry.checked_ofFormula]
      by_cases hjoined : (Formula.binary op left whole).depth ≤ maxDepth
      · rw [if_pos hjoined, close, List.length_cons, Nat.add_comm, ← Nat.sub_sub]
        exact ih (nesting - 1) rfl hjoined
      · have hclose := depth_close held (.binary op left whole)
        rw [if_neg hjoined, close, if_neg (by omega)]
        rfl

-- A right operand that has been read joins the waiting operators, or it waits to be extended.
theorem settle_opened (more : Bool) (held : List (Operator × Formula)) (op : Operator)
    (current operand : Formula) :
    settle more (.opened op :: heldFrames held) [.ofFormula operand, .ofFormula current]
        (held.length + 1) =
      if op.isLogical && !operand.isLogical && more then .ok (holding ((op, current) :: held) operand)
      else if (close held (.binary op current operand)).depth ≤ maxDepth then
        .ok (holding [] (close held (.binary op current operand)))
      else .error .nestingTooDeep := by
  have htake : takeOperands (.opened op) [.ofFormula operand, .ofFormula current] =
      .ok (op, .ofFormula current, .ofFormula operand, []) := rfl
  cases hwait : (op.isLogical && !operand.isLogical && more) with
  | true => exact settle_of_wait _ _ htake hwait
  | false =>
      rw [settle_of_join _ _ htake hwait, Entry.joined_ofFormula, Entry.checked_ofFormula,
        if_neg Bool.false_ne_true]
      by_cases hjoined : (Formula.binary op current operand).depth ≤ maxDepth
      · rw [if_pos hjoined]
        refine (settle_heldFrames more held _ rfl hjoined).trans ?_
        simp [holding, heldFrames]
      · have hclose := depth_close held (.binary op current operand)
        rw [if_neg hjoined, if_neg (by omega)]
        rfl

theorem isEmpty_segments (pairs : List (Operator × Formula)) :
    (Chain.segments pairs).isEmpty = pairs.isEmpty := by cases pairs <;> rfl

-- Reading the pairs that are left from such a state ends with the formula of the chain, unless it
-- is too deep. Each waiting operator is a level of that formula, so the limit on waiting operators
-- is met only where the formula is too deep anyway.
theorem run_segments (held : List (Operator × Formula)) {current : Formula}
    (pairs : List (Operator × Formula)) (hcurrent : current.depth ≤ maxDepth)
    (hpairs : held ≠ [] → pairs ≠ []) :
    ((holding held current).run (Chain.segments pairs)).bind finish =
      (resumed held current pairs).limited := by
  induction pairs generalizing held current with
  | nil =>
      have hheld : held = [] := by_contra fun hne => hpairs hne rfl
      subst hheld
      rw [resumed, absorb, close, bracket_nil, limited_of_le hcurrent]
      rfl
  | cons pair pairs ih =>
      obtain ⟨op, operand⟩ := pair
      have hresumed := depth_le_resumed held current ((op, operand) :: pairs)
      obtain ⟨right, hright, hoperand⟩ := exists_absorb_eq_binary current op operand pairs
      rw [hright, depth] at hresumed
      have hpos := current.depth_pos
      rw [Chain.segments]
      by_cases hdeep : maxDepth ≤ held.length
      · rw [run_of_le _ _ hdeep, limited_of_lt (by omega)]
        rfl
      rw [run_operator op _ (Nat.not_le.mp hdeep)]
      by_cases hnext : maxDepth ≤ held.length + 1
      · rw [run_of_le _ _ hnext, limited_of_lt (by omega)]
        rfl
      rw [run_operand _ _ (Nat.not_le.mp hnext), Entry.checked_ofFormula]
      by_cases hfits : operand.depth ≤ maxDepth
      swap
      · rw [if_neg hfits, limited_of_lt (by omega)]
        rfl
      rw [if_pos hfits, isEmpty_segments]
      change ((settle _ (.opened op :: heldFrames held) [.ofFormula operand, .ofFormula current]
        (held.length + 1)).bind fun next => next.run (Chain.segments pairs)).bind finish = _
      rw [settle_opened]
      have hwait : (op.isLogical && !operand.isLogical && !pairs.isEmpty) =
          !(!op.isLogical || operand.isLogical || pairs.isEmpty) := by
        cases op.isLogical <;> cases operand.isLogical <;> rfl
      rw [hwait]
      cases hstop : (!op.isLogical || operand.isLogical || pairs.isEmpty) with
      | true =>
          have hwhole : resumed held current ((op, operand) :: pairs) =
              resumed [] (close held (.binary op current operand)) pairs := by
            rw [resumed, absorb_of_stop current hstop, resumed_nil]
          rw [hwhole] at hresumed ⊢
          by_cases hclose : (close held (.binary op current operand)).depth ≤ maxDepth
          · rw [if_neg (by simp), if_pos hclose]
            exact ih [] hclose (by simp)
          · have hle := depth_le_bracket (close held (.binary op current operand)) pairs
            rw [← resumed_nil] at hle
            rw [if_neg (by simp), if_neg hclose, limited_of_lt (by omega)]
            rfl
      | false =>
          have hmore : pairs ≠ [] := by
            rintro rfl
            simp at hstop
          have hwhole : resumed held current ((op, operand) :: pairs) =
              resumed ((op, current) :: held) operand pairs := by
            rw [resumed, absorb_of_continue current hstop]
            rfl
          rw [hwhole, if_pos (by simp)]
          exact ih ((op, current) :: held) hfits fun _ => hmore

end Assembly

namespace Chain

open Formula

variable {tokens : List Token} {operand : Formula} {pairs : List (Operator × Formula)}

theorem ofSegments_eq (h : Chain tokens operand pairs) :
    ofSegments (Segment.ofTokens tokens) = (bracket operand pairs).limited := by
  have hstart : Assembly.start.nesting < maxDepth := by decide
  rw [h.ofTokens_eq]
  change ((Assembly.run Assembly.start (_ :: _)).bind Assembly.finish) = _
  rw [Assembly.run_operand _ _ hstart, Entry.checked_ofFormula]
  by_cases hfits : operand.depth ≤ maxDepth
  · rw [if_pos hfits, ← Assembly.resumed_nil]
    exact Assembly.run_segments [] pairs hfits (by simp)
  · have hle := depth_le_bracket operand pairs
    rw [if_neg hfits, limited_of_lt (by omega)]
    rfl

theorem parse_eq (h : Chain tokens operand pairs) {source : String}
    (hscan : Token.scan source = .ok tokens) :
    parse source = (bracket operand pairs).limited.map some := by
  rw [parse_of_scan hscan, ofTokens, if_neg h.ne_nil, h.ofSegments_eq]

-- A chain denotes its bracketing if that is within the depth limit, and is too deep otherwise. The
-- bracketing keeps the order of the source and continues a right operand at most once.
theorem parse_chain {source : String} (hscan : Token.scan source = .ok tokens)
    (hchain : Chain tokens operand pairs) :
    parse source =
        (if (bracket operand pairs).depth ≤ maxDepth then .ok (some (bracket operand pairs))
        else .error .nestingTooDeep) ∧
      (bracket operand pairs).inOrder = (operand, pairs) ∧
      (bracket operand pairs).ContinuesOnce := by
  obtain ⟨hoperand, hoperands⟩ := hchain.isOperand
  refine ⟨?_, ?_, continuesOnce_bracket operand pairs (continuesOnce_of_isOperand hoperand) hoperands⟩
  · rw [hchain.parse_eq hscan, limited]
    split <;> rfl
  · rw [inOrder_bracket operand pairs hoperands, inOrder_of_isOperand hoperand]
    rfl

theorem parse_chain_continued :
    parse "X || y > 2 && !!'a  b'" =
      .ok (some (.binary .and
        (.binary .or (.variable "x") (.binary .greater (.variable "y") (.constant (.number "2"))))
        (.not (.not (.constant (.string "a b")))))) := by
  have hscan : Token.scan "X || y > 2 && !!'a  b'" =
      .ok [.word "x", .operator .or, .word "y", .operator .greater, .word "2", .operator .and,
        .word "!!'a", .word "b'"] := rfl
  have hx : Operand.Spells [.operator .or, .word "y", .operator .greater, .word "2",
      .operator .and, .word "!!'a", .word "b'"] ['x'] (.variable "x") 0 :=
    .name rfl rfl (by decide) (by decide)
  have hy : Operand.Spells [.operator .greater, .word "2", .operator .and, .word "!!'a", .word "b'"]
      ['y'] (.variable "y") 0 := .name rfl rfl (by decide) (by decide)
  have htwo : Operand.Spells [.operator .and, .word "!!'a", .word "b'"] ['2']
      (.constant (.number "2")) 0 := .number (by decide +kernel)
  have htext : Operand.Spells [.word "b'"] ['\'', 'a'] (.constant (.string "a b")) 1 := .string rfl
  have hchain := Chain.cons (.word 0 _ hx)
    (.cons (.word 0 _ hy) (.cons (.word 0 _ htwo) (.last (.word 2 _ htext))))
  have hparse := (parse_chain hscan hchain).1
  simpa [bracket, absorb, depth, isLogical, Operator.isLogical, maxDepth, Nat.repeat] using hparse

end Chain

end Verdict

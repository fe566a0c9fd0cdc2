import Verdict.Proofs.Source.Balance
import Verdict.Proofs.Source.Pieces

namespace Verdict

namespace Assembly

open Segment

-- A result is a certain error, unless something is too deep before that error is met.
def Fails {α : Type} (result : Except ParseError α) (error : ParseError) : Prop :=
  result = .error error ∨ result = .error .nestingTooDeep

theorem Fails.map {α β : Type} {result : Except ParseError α} {error : ParseError}
    (h : Fails result error) (f : α → β) : Fails (result.map f) error := by
  rcases h with rfl | rfl
  · exact .inl rfl
  · exact .inr rfl

-- The operands read so far supply all operators that wait. Only an operator that has just been read
-- still has its left operand on the stack, and there is one. `balance` says by how many the
-- operands outnumber the operators.
structure Supplies (state : Assembly) (previous : Segment) (balance : Int)
    (segments : List Segment) : Prop where
  stack_ne_nil : state.stack ≠ []
  balance_eq : balance = state.stack.length - openedCount state.frames
  opened_eq : openedCount state.frames = if previous.isOperand then 0 else 1
  taken_eq : openedCount state.frames.tail = 0
  frames_eq_nil : segments = [] → previous.isOperand → state.frames = []

-- An operand that follows such operators never lacks an operand below it on the stack.
theorem settle_supplied (more : Bool) (frames : List Frame) (entry : Entry) {stack : List Entry}
    (nesting : Nat) (hstack : stack ≠ []) (htaken : openedCount frames.tail = 0) :
    settle more frames (entry :: stack) nesting = .error .nestingTooDeep ∨
      ∃ next : Assembly, settle more frames (entry :: stack) nesting = .ok next ∧
        next.stack ≠ [] ∧ next.stack.length + openedCount frames = stack.length + 1 ∧
        openedCount next.frames = 0 ∧ (more = false → next.frames = []) := by
  by_cases hwait : ∀ frame ∈ frames.head?,
      (frame.op.isLogical && !entry.formula.isLogical && more) = false
  · have hpos : 0 < stack.length := List.length_pos_of_ne_nil hstack
    have hopened : openedCount frames ≤ 1 := by
      cases frames with
      | nil => exact Nat.zero_le 1
      | cons frame frames =>
          rw [List.tail_cons] at htaken
          cases frame <;> simp [openedCount, htaken]
    rcases settle_all more frames entry stack nesting hwait with
      hdeep | ⟨result, nesting', hsettle, hne, hlength⟩ | ⟨hshort, -⟩
    · exact .inl hdeep
    · exact .inr ⟨_, hsettle, hne, hlength, rfl, fun _ => rfl⟩
    · omega
  · cases frames with
    | nil => simp at hwait
    | cons frame frames =>
        rw [List.tail_cons] at htaken
        have hwait : (frame.op.isLogical && !entry.formula.isLogical && more) = true := by
          simpa [and_assoc] using hwait
        have hmore : more ≠ false := by
          rintro rfl
          simp at hwait
        obtain ⟨left, rest, hsettle, hlength⟩ := settle_extending frames nesting hstack hwait
        refine .inr ⟨_, hsettle, by simp, ?_, htaken, fun hnone => absurd hnone hmore⟩
        rw [List.length_cons]
        omega

variable {state : Assembly} {previous : Segment} {balance : Int} {rest : List Segment}

theorem step_supplies_operator {op : Operator}
    (h : state.Supplies previous balance (.operator op :: rest))
    (hprevious : previous.isOperand) :
    Supplies ⟨state.stack, .opened op :: state.frames, state.nesting + 1⟩ (.operator op)
      (balance - 1) rest := by
  have hopened : openedCount state.frames = 0 := by rw [h.opened_eq, if_pos hprevious]
  have hbalance := h.balance_eq
  refine ⟨h.stack_ne_nil, ?_, by simp [openedCount, hopened, isOperand], hopened, fun _ hoperand => ?_⟩
  · simp only [openedCount]
    omega
  · simp [isOperand] at hoperand

theorem step_supplies_operand {entry : Entry}
    (h : state.Supplies previous balance (.operand (.ok entry) :: rest)) :
    settle (!rest.isEmpty) state.frames (entry :: state.stack) state.nesting =
        .error .nestingTooDeep ∨
      ∃ next : Assembly,
        settle (!rest.isEmpty) state.frames (entry :: state.stack) state.nesting = .ok next ∧
          next.Supplies (.operand (.ok entry)) (balance + 1) rest := by
  rcases settle_supplied (!rest.isEmpty) state.frames entry state.nesting h.stack_ne_nil
    h.taken_eq with hdeep | ⟨next, hsettle, hne, hlength, hopened, hends⟩
  · exact .inl hdeep
  · have hbalance := h.balance_eq
    have htaken : openedCount next.frames.tail = 0 := by
      cases hframes : next.frames with
      | nil => rfl
      | cons frame frames =>
          rw [hframes] at hopened
          cases frame with
          | opened op => simp [openedCount] at hopened
          | extending op left => exact hopened
    refine .inr ⟨next, hsettle, hne, by omega, hopened, htaken, fun hrest _ => hends ?_⟩
    rw [hrest]
    rfl

-- Segments that can be read lead from such a state to another one, unless something is too deep.
theorem run_supplies (done : List Segment) {later : List Segment}
    (h : state.Supplies previous balance (done ++ later))
    (hoperators : NoAdjacentOperators (previous :: (done ++ later)))
    (hdone : ∀ segment ∈ done, segment.IsReadable) :
    state.run (done ++ later) = .error .nestingTooDeep ∨
      ∃ next : Assembly, state.run (done ++ later) = next.run later ∧
        next.Supplies (done.getLastD previous)
          (balance + operandCount done - operatorCount done) later := by
  induction done generalizing state previous balance with
  | nil => exact .inr ⟨state, rfl, by simpa [operandCount, operatorCount] using h⟩
  | cons segment done ih =>
      rw [List.cons_append] at h hoperators ⊢
      by_cases hdeep : maxDepth ≤ state.nesting
      · exact .inl (run_of_le segment _ hdeep)
      have hnesting := Nat.not_le.mp hdeep
      have hchain := List.isChain_cons_cons.mp hoperators
      have hdone' : ∀ other ∈ done, other.IsReadable :=
        fun other hother => hdone other (List.mem_cons_of_mem _ hother)
      cases segment with
      | operator op =>
          have hprevious : previous.isOperand := by simpa [isOperand] using hchain.1
          rw [run_operator op _ hnesting, List.getLastD_cons, operandCount, operatorCount]
          have hrest := ih (step_supplies_operator h hprevious) hchain.2 hdone'
          have hbalance : balance + operandCount done - (operatorCount done + 1 : Nat) =
              balance - 1 + operandCount done - operatorCount done := by omega
          rwa [hbalance]
      | operand reading =>
          cases reading with
          | error error => exact absurd (hdone _ List.mem_cons_self) id
          | ok entry =>
              rw [run_operand _ _ hnesting, List.getLastD_cons, operandCount, operatorCount]
              rcases step_supplies_operand h with hdeep | ⟨next, hsettle, hnext⟩
              · exact .inl (by rw [Except.ok_bind, hdeep, Except.error_bind])
              · have hrest := ih hnext hchain.2 hdone'
                have hbalance : balance + (operandCount done + 1 : Nat) - operatorCount done =
                    balance + 1 + operandCount done - operatorCount done := by omega
                rw [Except.ok_bind, hsettle, Except.ok_bind, hbalance]
                exact hrest

theorem finish_of_supplies (h : state.Supplies previous balance []) :
    (previous.isOperand = false → state.finish = .error .missingRightOperand) ∧
      (previous.isOperand = true → balance ≠ 1 → state.finish = .error .invalidExpression) := by
  obtain ⟨stack, frames, nesting⟩ := state
  obtain ⟨hstack, hbalance, hopened, -, hframes⟩ := h
  dsimp only at hstack hbalance hopened hframes
  constructor
  · intro hoperator
    cases frames with
    | nil => simp [openedCount, hoperator] at hopened
    | cons frame frames => rfl
  · intro hoperand hone
    obtain rfl := hframes rfl hoperand
    simp only [openedCount] at hbalance
    cases stack with
    | nil => exact absurd rfl hstack
    | cons first rest =>
        cases rest with
        | nil =>
            rw [List.length_singleton] at hbalance
            omega
        | cons second rest => rfl

variable {entry : Entry} {error : ParseError}

theorem ofSegments_supplies {done later : List Segment}
    (hoperators : NoAdjacentOperators (.operand (.ok entry) :: (done ++ later)))
    (hdone : ∀ segment ∈ done, segment.IsReadable) :
    Formula.ofSegments (.operand (.ok entry) :: (done ++ later)) = .error .nestingTooDeep ∨
      ∃ next : Assembly, Formula.ofSegments (.operand (.ok entry) :: (done ++ later)) =
          (next.run later).bind finish ∧
        next.Supplies (done.getLastD (.operand (.ok entry)))
          (1 + operandCount done - operatorCount done) later := by
  have hstart : Supplies ⟨[entry], [], 0⟩ (.operand (.ok entry)) 1 (done ++ later) :=
    ⟨by simp, rfl, rfl, rfl, fun _ _ => rfl⟩
  have hfirst : Formula.ofSegments (.operand (.ok entry) :: (done ++ later)) =
      ((Assembly.run ⟨[entry], [], 0⟩ (done ++ later)).bind finish) := rfl
  rcases run_supplies done hstart hoperators hdone with hdeep | ⟨next, hrun, hnext⟩
  · exact .inl (by rw [hfirst, hdeep]; rfl)
  · exact .inr ⟨next, by rw [hfirst, hrun], hnext⟩

-- The first operand that cannot be read is met before any other fault behind an operand.
theorem fails_of_malformed {done later : List Segment}
    (hoperators : NoAdjacentOperators
      (.operand (.ok entry) :: (done ++ .operand (.error error) :: later)))
    (hdone : ∀ segment ∈ done, segment.IsReadable) :
    Fails (Formula.ofSegments (.operand (.ok entry) :: (done ++ .operand (.error error) :: later)))
      error := by
  rcases ofSegments_supplies hoperators hdone with hdeep | ⟨next, hrun, -⟩
  · exact .inr hdeep
  · rw [hrun]
    by_cases hdeep : maxDepth ≤ next.nesting
    · exact .inr (by rw [run_of_le _ _ hdeep]; rfl)
    · exact .inl (by rw [run_operand _ _ (Nat.not_le.mp hdeep)]; rfl)

-- What is at fault where all operands can be read shows at the end only.
theorem fails_at_end {rest : List Segment}
    (hoperators : NoAdjacentOperators (.operand (.ok entry) :: rest))
    (hrest : ∀ segment ∈ rest, segment.IsReadable) :
    ((rest.getLastD (.operand (.ok entry))).isOperand = false →
        Fails (Formula.ofSegments (.operand (.ok entry) :: rest)) .missingRightOperand) ∧
      ((rest.getLastD (.operand (.ok entry))).isOperand = true →
        operandCount rest ≠ operatorCount rest →
          Fails (Formula.ofSegments (.operand (.ok entry) :: rest)) .invalidExpression) := by
  rw [← List.append_nil rest] at hoperators
  rcases ofSegments_supplies hoperators hrest with hdeep | ⟨next, hrun, hnext⟩
  · rw [List.append_nil] at hdeep
    exact ⟨fun _ => .inr hdeep, fun _ _ => .inr hdeep⟩
  · obtain ⟨hmissing, hsurplus⟩ := finish_of_supplies hnext
    have hfinish : Formula.ofSegments (.operand (.ok entry) :: rest) = next.finish := by
      rw [← List.append_nil rest, hrun]
      rfl
    rw [hfinish]
    exact ⟨fun hlast => .inl (hmissing hlast), fun hlast hcount => .inl (hsurplus hlast (by omega))⟩

end Assembly

namespace Segment

open Assembly

-- An operator stands in front of everything, and behind it an operand that can be read.
def LacksLeft : List Segment → Prop
  | .operator _ :: .operand (.ok _) :: _ => True
  | _ => False

-- Tokens that one segment stands for, and what they denote when nothing stands around them.
def Denotes (piece : List Token) : Segment → Prop
  | .operator op => piece = [.operator op]
  | .operand reading =>
    piece ≠ [] ∧ Formula.ofTokens piece = reading.map fun entry => some entry.formula

theorem denotes_of_ofTokens {piece : List Token} {segment : Segment}
    (hpiece : ofTokens piece = [segment]) : Denotes piece segment := by
  cases segment with
  | operator op =>
      obtain ⟨rest, rfl, hrest⟩ := ofTokens_eq_operator hpiece
      rw [eq_nil_of_ofTokens hrest.symm]
      rfl
  | operand reading =>
      refine ⟨?_, ofTokens_of_eq_operand hpiece⟩
      rintro rfl
      cases hpiece

variable {segments : List Segment}

theorem ofSegments_of_lacksLeft (hlacks : LacksLeft segments) :
    Formula.ofSegments segments = .error .invalidExpression := by
  match segments with
  | .operator op :: .operand (.ok entry) :: rest => rfl

theorem fails_of_first_malformed {done later : List Segment} {error : ParseError}
    (hoperators : NoAdjacentOperators (done ++ .operand (.error error) :: later))
    (hlacks : ¬LacksLeft (done ++ .operand (.error error) :: later))
    (hdone : ∀ segment ∈ done, segment.IsReadable) :
    Fails (Formula.ofSegments (done ++ .operand (.error error) :: later)) error := by
  match done with
  | [] => exact .inl rfl
  | .operand (.error _) :: done => exact absurd (hdone _ List.mem_cons_self) id
  | .operand (.ok entry) :: done =>
      exact fails_of_malformed hoperators
        fun segment hsegment => hdone segment (List.mem_cons_of_mem _ hsegment)
  | [.operator op] => exact .inl rfl
  | .operator op :: .operand (.error _) :: done =>
      exact absurd (hdone _ (List.mem_cons_of_mem _ List.mem_cons_self)) id
  | .operator op :: .operand (.ok entry) :: done => exact absurd trivial hlacks
  | .operator op :: .operator next :: done =>
      have hadjacent := (List.isChain_cons_cons.mp hoperators).1
      simp [isOperand] at hadjacent

theorem fails_of_readable (hoperators : NoAdjacentOperators segments)
    (hlacks : ¬LacksLeft segments) (hreadable : ∀ segment ∈ segments, segment.IsReadable) :
    (∀ done op, segments = done ++ [.operator op] →
        Fails (Formula.ofSegments segments) .missingRightOperand) ∧
      (segments.getLast?.any isOperand → ¬NoAdjacentOperands segments →
        Fails (Formula.ofSegments segments) .invalidExpression) := by
  match segments with
  | [] => exact ⟨fun done op hsplit => by simp at hsplit, fun hlast => by simp at hlast⟩
  | .operand (.error _) :: rest => exact absurd (hreadable _ List.mem_cons_self) id
  | .operand (.ok entry) :: rest =>
      obtain ⟨hmissing, hsurplus⟩ := fails_at_end hoperators
        fun segment hsegment => hreadable segment (List.mem_cons_of_mem _ hsegment)
      constructor
      · intro done op hsplit
        cases done with
        | nil => cases hsplit
        | cons first done =>
            obtain ⟨-, rfl⟩ := List.cons.inj hsplit
            exact hmissing (by simp [isOperand])
      · intro hlast hadjacent
        have hoperand : (rest.getLastD (.operand (.ok entry))).isOperand := by
          simpa [List.getLast?_cons, List.getLastD_eq_getLast?] using hlast
        refine hsurplus hoperand fun hcount => hadjacent ?_
        have hhead : (Segment.operand (.ok entry) :: rest).head?.any isOperand := rfl
        have hbalanced : operandCount (.operand (.ok entry) :: rest) =
            operatorCount (.operand (.ok entry) :: rest) + 1 := by
          rw [operandCount, operatorCount, hcount]
        rw [← alternates_iff_noAdjacentOperands hhead hlast hbalanced]
        exact (alternates_iff_noAdjacentOperators hhead hlast hbalanced).mpr hoperators
  | [.operator op] => exact ⟨fun _ _ _ => .inl rfl, fun hlast => by simp [isOperand] at hlast⟩
  | .operator op :: .operand (.error _) :: rest =>
      exact absurd (hreadable _ (List.mem_cons_of_mem _ List.mem_cons_self)) id
  | .operator op :: .operand (.ok entry) :: rest => exact absurd trivial hlacks
  | .operator op :: .operator next :: rest =>
      have hadjacent := (List.isChain_cons_cons.mp hoperators).1
      simp [isOperand] at hadjacent

theorem parse_eq_ofSegments {source : String} {tokens : List Token}
    (hscan : Token.scan source = .ok tokens) (hne : ofTokens tokens ≠ []) :
    Formula.parse source = (Formula.ofSegments (ofTokens tokens)).map some := by
  have htokens : tokens ≠ [] := by
    rintro rfl
    exact hne rfl
  rw [Formula.parse_of_scan hscan, Formula.ofTokens, if_neg htokens]

-- Where no operators are adjacent, the error of a source is that of its first fault: an operator in
-- front of everything, else the first operand that denotes nothing on its own, else an operator at
-- the end, else two operands side by side. Nesting that is too deep can be met before all but the
-- first of these.
theorem parse_names_first_fault {source : String} {tokens : List Token}
    (hscan : Token.scan source = .ok tokens) (hoperators : NoAdjacentOperators (ofTokens tokens)) :
    (∃ pieces : List (List Token), pieces.flatten = tokens ∧
        List.Forall₂ Denotes pieces (ofTokens tokens)) ∧
      (LacksLeft (ofTokens tokens) → Formula.parse source = .error .invalidExpression) ∧
      (¬LacksLeft (ofTokens tokens) →
        (∀ done error later, ofTokens tokens = done ++ .operand (.error error) :: later →
          (∀ segment ∈ done, segment.IsReadable) → Fails (Formula.parse source) error) ∧
        ((∀ segment ∈ ofTokens tokens, segment.IsReadable) →
          (∀ done op, ofTokens tokens = done ++ [.operator op] →
            Fails (Formula.parse source) .missingRightOperand) ∧
          ((ofTokens tokens).getLast?.any isOperand → ¬NoAdjacentOperands (ofTokens tokens) →
            Fails (Formula.parse source) .invalidExpression))) := by
  obtain ⟨pieces, hflatten, hpieces⟩ := exists_pieces tokens
  refine ⟨⟨pieces, hflatten, hpieces.imp fun _ _ => denotes_of_ofTokens⟩, fun hlacks => ?_,
    fun hlacks => ⟨fun done error later hsplit hdone => ?_, fun hreadable => ?_⟩⟩
  · have hne : ofTokens tokens ≠ [] := by
      intro hnil
      rw [hnil] at hlacks
      exact hlacks
    rw [parse_eq_ofSegments hscan hne, ofSegments_of_lacksLeft hlacks]
    rfl
  · rw [parse_eq_ofSegments hscan (by simp [hsplit])]
    rw [hsplit] at hoperators hlacks ⊢
    exact (fails_of_first_malformed hoperators hlacks hdone).map some
  · obtain ⟨hmissing, hadjacent⟩ := fails_of_readable hoperators hlacks hreadable
    constructor
    · intro done op hsplit
      rw [parse_eq_ofSegments hscan (by simp [hsplit])]
      exact (hmissing done op hsplit).map some
    · intro hlast hoperands
      have hne : ofTokens tokens ≠ [] := by
        intro hnil
        simp [hnil] at hlast
      rw [parse_eq_ofSegments hscan hne]
      exact (hadjacent hlast hoperands).map some

-- The literal that never ends comes second, and the operands side by side show at the end only.
theorem parse_names_first_fault_malformed :
    Fails (Formula.parse "a b == c-d && 'open") (.invalidToken "c-d") := by
  have hscan : Token.scan "a b == c-d && 'open" =
      .ok [.word "a", .word "b", .operator .equal, .word "c-d", .operator .and, .word "'open"] := rfl
  have hsegments : ofTokens [.word "a", .word "b", .operator .equal, .word "c-d", .operator .and,
        .word "'open"] =
      [.operand (.ok (.leaf (.variable "a"))), .operand (.ok (.leaf (.variable "b"))),
        .operator .equal, .operand (.error (.invalidToken "c-d")), .operator .and,
        .operand (.error .unclosedLiteral)] := rfl
  have hoperators : NoAdjacentOperators (ofTokens [.word "a", .word "b", .operator .equal,
      .word "c-d", .operator .and, .word "'open"]) := by
    rw [hsegments]
    simp [NoAdjacentOperators, isOperand]
  have hreadable : ∀ segment ∈ [Segment.operand (.ok (.leaf (.variable "a"))),
      .operand (.ok (.leaf (.variable "b"))), .operator .equal], segment.IsReadable := by
    simp [IsReadable]
  exact ((parse_names_first_fault hscan hoperators).2.2 id).1 _ _ _ hsegments hreadable

end Segment

end Verdict

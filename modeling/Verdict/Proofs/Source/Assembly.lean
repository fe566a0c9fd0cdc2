import Verdict.Expression
import Verdict.Proofs.Except

namespace Verdict

theorem Formula.parse_of_scan {source : String} {tokens : List Token}
    (hscan : Token.scan source = .ok tokens) : parse source = ofTokens tokens := by
  rw [parse, hscan]
  rfl

theorem Formula.exists_scan_of_parse {source : String} {tree : Formula}
    (hparse : parse source = .ok (some tree)) :
    ∃ tokens, Token.scan source = .ok tokens ∧ ofTokens tokens = .ok (some tree) := by
  rw [parse] at hparse
  exact Except.bind_eq_ok_iff.mp hparse

-- A source has the truth value of what it denotes.
theorem evaluate_of_parse {source : String} {tree : Formula}
    (hparse : Formula.parse source = .ok (some tree)) (context : Context) :
    evaluate source context = (tree.isTrue context).mapError .evaluation := by
  rw [evaluate, Expression.compile, hparse]
  rfl

namespace Assembly

variable {more : Bool} {frame : Frame} {stack rest : List Entry} {op : Operator}
  {left right : Entry} (frames : List Frame) (nesting : Nat)

theorem settle_of_error {error : ParseError} (htake : takeOperands frame stack = .error error) :
    settle more (frame :: frames) stack nesting = .error error := by
  rw [settle, htake]
  rfl

theorem settle_of_wait (htake : takeOperands frame stack = .ok (op, left, right, rest))
    (hwait : (op.isLogical && !right.formula.isLogical && more) = true) :
    settle more (frame :: frames) stack nesting =
      .ok ⟨right :: rest, .extending op left :: frames, nesting⟩ := by
  rw [settle, htake]
  exact if_pos hwait

theorem settle_of_join (htake : takeOperands frame stack = .ok (op, left, right, rest))
    (hwait : (op.isLogical && !right.formula.isLogical && more) = false) :
    settle more (frame :: frames) stack nesting =
      (Entry.joined op left right).bind fun whole =>
        settle more frames (whole :: rest) (nesting - 1) := by
  rw [settle, htake]
  exact if_neg (by simp [hwait])

-- A new operand makes the innermost operator wait on, or completes it and is handed on with it.
theorem settle_cases {frames : List Frame} {nesting : Nat} {next : Assembly}
    (hsettle : settle more (frame :: frames) stack nesting = .ok next) :
    ∃ op left right rest, takeOperands frame stack = .ok (op, left, right, rest) ∧
      ((op.isLogical && !right.formula.isLogical && more) = true ∧
          next = ⟨right :: rest, .extending op left :: frames, nesting⟩ ∨
        (op.isLogical && !right.formula.isLogical && more) = false ∧
          ∃ whole, Entry.joined op left right = .ok whole ∧
            settle more frames (whole :: rest) (nesting - 1) = .ok next) := by
  obtain ⟨⟨op, left, right, rest⟩, htake, -⟩ := Except.bind_eq_ok_iff.mp hsettle
  refine ⟨op, left, right, rest, htake, ?_⟩
  cases hwait : (op.isLogical && !right.formula.isLogical && more) with
  | true =>
      rw [settle_of_wait frames nesting htake hwait] at hsettle
      exact .inl ⟨rfl, (Except.ok.inj hsettle).symm⟩
  | false =>
      rw [settle_of_join frames nesting htake hwait] at hsettle
      exact .inr ⟨rfl, Except.bind_eq_ok_iff.mp hsettle⟩

theorem step_of_le {state : Assembly} (segment : Segment) (hdeep : maxDepth ≤ state.nesting) :
    state.step more segment = .error .nestingTooDeep := by
  unfold step
  rw [if_pos hdeep]

theorem step_operator {state : Assembly} (op : Operator) (hdeep : state.nesting < maxDepth) :
    state.step more (.operator op) =
      .ok ⟨state.stack, .opened op :: state.frames, state.nesting + 1⟩ := by
  rw [step, if_neg (Nat.not_le.mpr hdeep)]

theorem step_operand {state : Assembly} (reading : Except ParseError Entry)
    (hdeep : state.nesting < maxDepth) :
    state.step more (.operand reading) =
      reading.bind fun entry => settle more state.frames (entry :: state.stack) state.nesting := by
  rw [step, if_neg (Nat.not_le.mpr hdeep)]
  rfl

-- A step within the limit puts an operator among those that wait, or hands an operand to them.
theorem step_cases {state next : Assembly} {segment : Segment}
    (hstep : state.step more segment = .ok next) :
    state.nesting < maxDepth ∧
      ((∃ op, segment = .operator op ∧
          next = ⟨state.stack, .opened op :: state.frames, state.nesting + 1⟩) ∨
        ∃ entry, segment = .operand (.ok entry) ∧
          settle more state.frames (entry :: state.stack) state.nesting = .ok next) := by
  by_cases hdeep : maxDepth ≤ state.nesting
  · rw [step_of_le segment hdeep] at hstep
    cases hstep
  have hlt : state.nesting < maxDepth := Nat.not_le.mp hdeep
  refine ⟨hlt, ?_⟩
  cases segment with
  | operator op =>
      rw [step_operator op hlt] at hstep
      exact .inl ⟨op, rfl, (Except.ok.inj hstep).symm⟩
  | operand reading =>
      rw [step_operand reading hlt] at hstep
      obtain ⟨entry, rfl, hsettle⟩ := Except.bind_eq_ok_iff.mp hstep
      exact .inr ⟨entry, rfl, hsettle⟩

theorem run_cons (state : Assembly) (segment : Segment) (segments : List Segment) :
    state.run (segment :: segments) =
      (state.step (!segments.isEmpty) segment).bind fun next => next.run segments := rfl

theorem run_of_le {state : Assembly} (segment : Segment) (segments : List Segment)
    (hdeep : maxDepth ≤ state.nesting) :
    state.run (segment :: segments) = .error .nestingTooDeep := by
  rw [run_cons, step_of_le segment hdeep]
  rfl

theorem run_operator {state : Assembly} (op : Operator) (segments : List Segment)
    (hdeep : state.nesting < maxDepth) :
    state.run (.operator op :: segments) =
      run ⟨state.stack, .opened op :: state.frames, state.nesting + 1⟩ segments := by
  rw [run_cons, step_operator op hdeep]
  rfl

theorem run_operand {state : Assembly} (reading : Except ParseError Entry)
    (segments : List Segment) (hdeep : state.nesting < maxDepth) :
    state.run (.operand reading :: segments) = reading.bind fun entry =>
      (settle (!segments.isEmpty) state.frames (entry :: state.stack) state.nesting).bind
        fun next => next.run segments := by
  rw [run_cons, step_operand reading hdeep, Except.bind_assoc]

end Assembly

end Verdict

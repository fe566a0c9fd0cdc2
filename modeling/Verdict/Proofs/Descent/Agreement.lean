import Verdict.Proofs.Descent.Calls
import Verdict.Proofs.Descent.Soundness
import Verdict.Proofs.Source.Assembly

namespace Verdict.Descent

def Halts (state : Descent) (result : Except ParseError (Option Formula)) : Prop :=
  ∃ count, (step^[count] state).phase = .halted result

theorem Halts.of_step {state : Descent} {result : Except ParseError (Option Formula)}
    (h : Halts state.step result) : Halts state result := by
  obtain ⟨count, hcount⟩ := h
  exact ⟨count + 1, hcount⟩

-- An error passes through all calls in progress.
theorem halts_returned_error (tokens : List Token) (stack : List Entry) (rules : List Rule)
    (nesting : Nat) (error : ParseError) :
    Halts ⟨tokens, stack, rules, nesting, .returned (.error error)⟩ (.error error) := by
  induction rules generalizing nesting with
  | nil => exact ⟨1, rfl⟩
  | cons rule rules ih =>
      refine .of_step (.of_step ?_)
      cases rule <;> exact ih (nesting - 1)

theorem halts_leaving_error (tokens : List Token) (stack : List Entry) (rule : Rule)
    (rules : List Rule) (nesting : Nat) (error : ParseError) :
    Halts ⟨tokens, stack, rule :: rules, nesting, .leaving (.error error)⟩ (.error error) :=
  .of_step (halts_returned_error tokens stack rules (nesting - 1) error)

-- Where the parser is when an assembly stands between two segments.
def waiting (tokens : List Token) (state : Assembly) : Descent :=
  match state.frames, tokens with
  | [], _ => ⟨tokens, state.stack, [], state.nesting, .top⟩
  | frame :: frames, token :: tokens =>
    ⟨tokens, state.stack, .operator frame :: frames.map .operator, state.nesting, .entering token⟩
  | frame :: frames, [] =>
    ⟨[], state.stack, .operator frame :: frames.map .operator, state.nesting,
      .leaving (.error .missingRightOperand)⟩

-- What reading the tokens that are left makes of an assembly.
def outcome (tokens : List Token) (state : Assembly) : Except ParseError (Option Formula) :=
  ((state.run (Segment.ofTokens tokens)).bind Assembly.finish).map some

theorem negate_cons {entry : Entry} (hentry : entry.IsExact) (tokens : List Token)
    (stack : List Entry) (rules : List Rule) (nesting marks : Nat) :
    negate tokens rules nesting marks (entry :: stack) =
      match entry.negated marks with
      | .ok entry => ⟨tokens, entry :: stack, rules, nesting, .leaving (.ok ())⟩
      | .error error => ⟨tokens, stack, rules, nesting, .leaving (.error error)⟩ := by
  cases marks with
  | zero =>
      have hnegated : entry.negated 0 = .ok entry := if_pos hentry.2
      rw [hnegated]
      rfl
  | succ marks => rfl

theorem halts_readWord {word : List Char} {tokens : List Token} {stack : List Entry}
    {rules : List Rule} {nesting : Nat} {result : Except ParseError (Option Formula)}
    (hok : ∀ entry taken, Operand.read word tokens = (.ok entry, taken) →
      Halts ⟨tokens.drop taken, entry :: stack, rules, nesting, .returned (.ok ())⟩ result)
    (herror : ∀ error taken, Operand.read word tokens = (.error error, taken) →
      result = .error error) :
    Halts (readWord word tokens stack (.operand :: rules) (nesting + 1)) result := by
  unfold Operand.read at hok herror
  unfold readWord
  by_cases hword : Lexeme.isOperatorLike word
  · rw [if_pos hword] at herror ⊢
    rw [herror _ _ rfl]
    exact halts_leaving_error ..
  rw [if_neg hword] at hok herror ⊢
  obtain ⟨reading, taken, hread⟩ : ∃ reading taken,
      Operand.readBare (word.dropWhile (· = '!')) tokens = (reading, taken) := ⟨_, _, rfl⟩
  simp only [hread] at hok herror ⊢
  cases reading with
  | error error =>
      rw [herror error taken rfl]
      exact halts_leaving_error ..
  | ok entry =>
      have hentry := Entry.isExact_of_readBare hread
      refine .of_step ?_
      change Halts (negate _ _ _ (word.takeWhile (· = '!')).length (entry :: stack)) result
      rw [negate_cons hentry]
      cases hnegated : entry.negated (word.takeWhile (· = '!')).length with
      | error error =>
          rw [herror error taken (congrArg (·, taken) hnegated)]
          exact halts_leaving_error ..
      | ok whole => exact .of_step (hok whole taken (congrArg (·, taken) hnegated))

theorem eq_of_takeOperands {frame : Frame} {entry left right : Entry} {stack below : List Entry}
    {op : Operator} (htake : Assembly.takeOperands frame (entry :: stack) = .ok (op, left, right, below)) :
    right = entry := by
  unfold Assembly.takeOperands at htake
  split at htake
  · rename_i heq
    cases htake
    exact (List.cons.inj heq).1.symm
  · rename_i heq
    cases htake
    exact (List.cons.inj heq).1.symm
  · cases htake

-- A new operand is handed to the operators in progress from call to call, just as an assembly
-- settles it at once.
theorem halts_settled {tokens : List Token}
    (hwaiting : ∀ state, Halts (waiting tokens state) (outcome tokens state)) (frames : List Frame)
    {entry : Entry} (stack : List Entry) (nesting : Nat) (hentry : entry.depth ≤ maxDepth) :
    Halts ⟨tokens, entry :: stack, frames.map .operator, nesting, .returned (.ok ())⟩
      ((Assembly.settle (!tokens.isEmpty) frames (entry :: stack) nesting).bind
        (outcome tokens)) := by
  induction frames generalizing entry stack nesting with
  | nil => exact .of_step (hwaiting ⟨entry :: stack, [], nesting⟩)
  | cons frame frames ih =>
      refine .of_step ?_
      change Halts (combine frame tokens (entry :: stack) (frames.map .operator) nesting) _
      unfold combine
      split
      · rename_i error htake
        rw [Assembly.settle_of_error frames nesting htake]
        exact halts_leaving_error ..
      rename_i op left right below htake
      obtain rfl := eq_of_takeOperands htake
      have hjoin : (op.isLogical && !right.formula.isLogical && !tokens.isEmpty) = false →
          Halts (join op left right tokens below (.operator frame :: frames.map .operator) nesting)
            ((Assembly.settle (!tokens.isEmpty) (frame :: frames) (right :: stack) nesting).bind
              (outcome tokens)) := by
        intro hwait
        rw [Assembly.settle_of_join frames nesting htake hwait]
        unfold join
        cases hjoined : Entry.joined op left right with
        | error error => exact halts_leaving_error ..
        | ok whole => exact .of_step (ih below (nesting - 1) (Entry.eq_of_checked hjoined).2)
      cases hlogical : (op.isLogical && !right.formula.isLogical) with
      | false => exact hjoin (by simp [hlogical])
      | true =>
          cases tokens with
          | nil => exact hjoin (by simp)
          | cons token rest =>
              rw [Assembly.settle_of_wait frames nesting htake (by simp [hlogical])]
              have hchecked : right.checked = .ok right := if_pos hentry
              simp only [extend, hchecked]
              exact hwaiting ⟨right :: below, .extending op left :: frames, nesting⟩

theorem halts_waiting_nil (state : Assembly) : Halts (waiting [] state) (outcome [] state) := by
  obtain ⟨stack, frames, nesting⟩ := state
  cases frames with
  | cons frame frames => exact halts_leaving_error ..
  | nil =>
      match stack with
      | [] | [_] | _ :: _ :: _ => exact ⟨1, rfl⟩

theorem isEmpty_ofTokens (tokens : List Token) :
    (Segment.ofTokens tokens).isEmpty = tokens.isEmpty := by
  match tokens with
  | [] | .bool _ :: _ | .operator _ :: _ | .word _ :: _ => rfl

theorem outcome_of_le (token : Token) (tokens : List Token) {state : Assembly}
    (hdeep : maxDepth ≤ state.nesting) :
    outcome (token :: tokens) state = .error .nestingTooDeep := by
  obtain ⟨segment, rest, hgroup⟩ : ∃ segment rest,
      Segment.ofTokens (token :: tokens) = segment :: rest := by
    cases token with
    | bool value => exact ⟨_, _, rfl⟩
    | operator op => exact ⟨_, _, rfl⟩
    | word text => exact ⟨_, _, Segment.ofTokens_word text rfl⟩
  rw [outcome, hgroup, Assembly.run_of_le segment rest hdeep]
  rfl

theorem outcome_operator (op : Operator) (tokens : List Token) {state : Assembly}
    (hdeep : state.nesting < maxDepth) :
    outcome (.operator op :: tokens) state =
      outcome tokens ⟨state.stack, .opened op :: state.frames, state.nesting + 1⟩ := by
  have hgroup : Segment.ofTokens (.operator op :: tokens) =
      .operator op :: Segment.ofTokens tokens := rfl
  rw [outcome, hgroup, Assembly.run_operator op _ hdeep]
  rfl

theorem outcome_operand {token : Token} {tokens rest : List Token}
    {reading : Except ParseError Entry} {state : Assembly}
    (hgroup : Segment.ofTokens (token :: tokens) = .operand reading :: Segment.ofTokens rest)
    (hdeep : state.nesting < maxDepth) :
    outcome (token :: tokens) state = reading.bind fun entry =>
      (Assembly.settle (!rest.isEmpty) state.frames (entry :: state.stack) state.nesting).bind
        (outcome rest) := by
  rw [outcome, hgroup, Assembly.run_operand reading _ hdeep, isEmpty_ofTokens]
  unfold outcome
  simp only [Except.bind_assoc, Except.map_bind]

theorem halts_entering (token : Token) (tokens : List Token) (state : Assembly)
    (hwaiting : ∀ rest state, rest.length ≤ tokens.length →
      Halts (waiting rest state) (outcome rest state)) :
    Halts ⟨tokens, state.stack, state.frames.map .operator, state.nesting, .entering token⟩
      (outcome (token :: tokens) state) := by
  obtain ⟨stack, frames, nesting⟩ := state
  refine .of_step ?_
  change Halts (enter token tokens stack (frames.map .operator) nesting) _
  unfold enter
  by_cases hdeep : maxDepth ≤ nesting
  · rw [if_pos hdeep, outcome_of_le token tokens hdeep]
    exact halts_returned_error ..
  have hlt : nesting < maxDepth := Nat.not_le.mp hdeep
  rw [if_neg hdeep]
  cases token with
  | bool value =>
      have hgroup : Segment.ofTokens (.bool value :: tokens) =
          .operand (.ok (.leaf (.constant (.bool value)))) :: Segment.ofTokens tokens := rfl
      have hrest := fun state => hwaiting tokens state (Nat.le_refl _)
      have hleaf : (Entry.leaf (.constant (.bool value))).depth ≤ maxDepth := show 1 ≤ maxDepth by decide
      rw [outcome_operand hgroup hlt]
      exact .of_step (halts_settled hrest frames stack nesting hleaf)
  | operator op =>
      rw [outcome_operator op tokens hlt]
      have hnext := hwaiting tokens ⟨stack, .opened op :: frames, nesting + 1⟩ (Nat.le_refl _)
      cases tokens <;> exact hnext
  | word text =>
      refine halts_readWord ?_ ?_
      · intro entry taken hread
        have hentry := Operand.isExact_of_read hread
        have hrest := fun state => hwaiting (tokens.drop taken) state (by simp)
        rw [outcome_operand (Segment.ofTokens_word text hread) hlt]
        exact halts_settled hrest frames stack nesting hentry.2
      · intro error taken hread
        rw [outcome_operand (Segment.ofTokens_word text hread) hlt]
        rfl

-- The parser comes to the same result as an assembly.
theorem halts_waiting (tokens : List Token) (state : Assembly) :
    Halts (waiting tokens state) (outcome tokens state) := by
  induction hlength : tokens.length using Nat.strongRecOn generalizing tokens state with
  | _ length ih =>
      cases tokens with
      | nil => exact halts_waiting_nil state
      | cons token tokens =>
          rw [List.length_cons] at hlength
          have hentering := halts_entering token tokens state fun rest state hle =>
            ih rest.length (by omega) rest state rfl
          obtain ⟨stack, frames, nesting⟩ := state
          cases frames with
          | nil => exact .of_step hentering
          | cons frame frames => exact hentering

theorem halts_start (tokens : List Token) : Halts (start tokens) (Formula.ofTokens tokens) := by
  by_cases htokens : tokens = []
  · subst htokens
    exact ⟨0, rfl⟩
  · have hstart : start tokens = waiting tokens .start := by
      rw [start, if_neg htokens]
      rfl
    rw [hstart, Formula.ofTokens, if_neg htokens]
    exact halts_waiting tokens .start

theorem depth_le_of_ofTokens {tokens : List Token} {formula : Formula}
    (hformula : Formula.ofTokens tokens = .ok (some formula)) : formula.depth ≤ maxDepth := by
  obtain ⟨count, hcount⟩ := halts_start tokens
  rw [hformula] at hcount
  exact (sound_iterate (sound_start tokens) count).halted formula hcount

-- At every point of the run on a source the recorded depths are exact and within the limit, and so
-- is the count of the calls in progress; the same holds of an assembly between two segments. Every
-- call returns to what it found, with or without an error. The run ends with what the source
-- denotes, which is therefore within the limit.
theorem parse_keeps_depth {source : String} {tokens : List Token}
    (hscan : Token.scan source = .ok tokens) :
    (∀ count, Sound (step^[count] (start tokens))) ∧
      (∀ count token, (step^[count] (start tokens)).phase = .entering token →
        Returns (step^[count] (start tokens))) ∧
      (∃ count, (step^[count] (start tokens)).phase = .halted (Formula.parse source)) ∧
      (∀ state rest, Assembly.Visits (Segment.ofTokens tokens) state rest → state.IsExact) ∧
      ∀ formula, Formula.parse source = .ok (some formula) → formula.depth ≤ maxDepth := by
  rw [Formula.parse_of_scan hscan]
  exact ⟨sound_iterate (sound_start tokens), fun count token => call_returns _, halts_start tokens,
    fun state rest => Assembly.isExact_of_visits, fun formula => depth_le_of_ofTokens⟩

-- The calls of both operators are in progress where the string is met that is never closed.
theorem parse_keeps_depth_unclosed :
    let tokens : List Token := [.word "a", .operator .and, .word "b", .operator .or, .word "'c"]
    (step^[12] (start tokens)).nesting = 2 ∧ Sound (step^[12] (start tokens)) ∧
      Returns (step^[12] (start tokens)) ∧
      ∃ count, (step^[count] (start tokens)).phase = .halted (.error .unclosedLiteral) := by
  have hscan : Token.scan "a && b || 'c" =
      .ok [.word "a", .operator .and, .word "b", .operator .or, .word "'c"] := rfl
  obtain ⟨hsound, hreturns, hhalts, -⟩ := parse_keeps_depth hscan
  exact ⟨rfl, hsound 12, hreturns 12 (.word "'c") rfl, hhalts⟩

end Verdict.Descent

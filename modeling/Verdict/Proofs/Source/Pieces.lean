import Verdict.Proofs.Source.Assembly
import Verdict.Proofs.Source.Literal
import Verdict.Proofs.Source.Reading

namespace Verdict

namespace Operand

-- What a literal does not take up has no influence on it.
theorem takeUntil?_take {terminator : Char} {piece body : List Char} {tokens : List Token}
    {taken : Nat} (htake : takeUntil? terminator piece tokens = some (body, taken)) :
    takeUntil? terminator piece (tokens.take taken) = some (body, taken) := by
  induction tokens generalizing piece body taken with
  | nil => simpa using htake
  | cons token tokens ih =>
      rcases takeUntil?_cases htake with
        ⟨hend, rfl, rfl⟩ | ⟨next, rest, text, count, hend, htokens, hrest, rfl, rfl⟩
      · exact takeUntil?_of_end hend _
      · cases htokens
        rw [List.take_succ_cons, takeUntil?_of_continue hend, ih hrest]
        rfl

theorem readBare_take {text : List Char} {following : List Token}
    {reading : Except ParseError Entry} {taken : Nat}
    (hread : readBare text following = (reading, taken)) :
    readBare text (following.take taken) = (reading, taken) := by
  unfold readBare at hread ⊢
  by_cases htrue : text = "true".toList
  · rw [if_pos htrue] at hread ⊢
    exact hread
  rw [if_neg htrue] at hread ⊢
  by_cases hfalse : text = "false".toList
  · rw [if_pos hfalse] at hread ⊢
    exact hread
  rw [if_neg hfalse] at hread ⊢
  by_cases hnumber : Lexeme.isNumber text
  · rw [if_pos hnumber] at hread ⊢
    exact hread
  rw [if_neg hnumber] at hread ⊢
  split at hread
  · rename_i first
    cases htake : takeUntil? '\'' first following with
    | none =>
        rw [htake] at hread
        cases hread
        simp [htake]
    | some part =>
        rw [htake] at hread
        cases hread
        simp [takeUntil?_take htake]
  · rename_i first
    cases htake : takeUntil? ']' first following with
    | none =>
        rw [htake] at hread
        cases hread
        simp [htake]
    | some part =>
        rw [htake] at hread
        cases hread
        simp [takeUntil?_take htake]
  · exact hread

theorem read_take {word : List Char} {following : List Token} {reading : Except ParseError Entry}
    {taken : Nat} (hread : read word following = (reading, taken)) :
    read word (following.take taken) = (reading, taken) := by
  unfold read at hread ⊢
  by_cases hoperator : Lexeme.isOperatorLike word
  · rw [if_pos hoperator] at hread ⊢
    exact hread
  rw [if_neg hoperator] at hread ⊢
  cases hbare : readBare (word.dropWhile (· = '!')) following with
  | mk bare count =>
      simp only [hbare, Prod.mk.injEq] at hread
      obtain ⟨rfl, rfl⟩ := hread
      simp only [readBare_take hbare]

end Operand

namespace Segment

-- Tokens start with a piece that is one segment, also when nothing follows it.
theorem exists_piece (token : Token) (tokens : List Token) :
    ∃ piece rest segment, token :: tokens = piece ++ rest ∧ rest.length ≤ tokens.length ∧
      ofTokens piece = [segment] ∧ ofTokens (token :: tokens) = segment :: ofTokens rest := by
  cases token with
  | bool value => exact ⟨[.bool value], tokens, _, rfl, Nat.le_refl _, rfl, rfl⟩
  | operator op => exact ⟨[.operator op], tokens, _, rfl, Nat.le_refl _, rfl, rfl⟩
  | word text =>
      cases hread : Operand.read text.toList tokens with
      | mk reading taken =>
          have hpiece : ofTokens (.word text :: tokens.take taken) = [.operand reading] := by
            rw [ofTokens_word text (Operand.read_take hread), List.drop_take_self]
            rfl
          refine ⟨.word text :: tokens.take taken, tokens.drop taken, .operand reading, ?_, ?_,
            hpiece, ofTokens_word text hread⟩
          · rw [List.cons_append, List.take_append_drop]
          · rw [List.length_drop]
            exact Nat.sub_le _ _

theorem exists_pieces (tokens : List Token) :
    ∃ pieces : List (List Token), pieces.flatten = tokens ∧
      List.Forall₂ (fun piece segment => ofTokens piece = [segment]) pieces (ofTokens tokens) := by
  induction hlength : tokens.length using Nat.strongRecOn generalizing tokens with
  | _ length ih =>
      cases tokens with
      | nil => exact ⟨[], rfl, .nil⟩
      | cons token tokens =>
          obtain ⟨piece, rest, segment, hsplit, hle, hpiece, hsegments⟩ := exists_piece token tokens
          rw [List.length_cons] at hlength
          obtain ⟨pieces, hflatten, hpieces⟩ := ih rest.length (by omega) rest rfl
          rw [hsegments]
          exact ⟨piece :: pieces, by rw [List.flatten_cons, hflatten, hsplit], .cons hpiece hpieces⟩

-- The tokens of one operand denote what reading it gives.
theorem ofTokens_of_eq_operand {piece : List Token} {reading : Except ParseError Entry}
    (hpiece : ofTokens piece = [.operand reading]) :
    Formula.ofTokens piece = reading.map fun entry => some entry.formula := by
  have hne : piece ≠ [] := by
    rintro rfl
    cases hpiece
  rw [Formula.ofTokens, if_neg hne, hpiece]
  cases reading <;> rfl

end Segment

-- A source of one operand denotes what its first word is read as.
theorem Formula.parse_of_read {source : String} {word : List Char} {following : List Token}
    {reading : Except ParseError Entry}
    (hscan : Token.scan source = .ok (.word (String.ofList word) :: following))
    (hread : Operand.read word following = (reading, following.length)) :
    parse source = reading.map fun entry => some entry.formula := by
  rw [← String.toList_ofList (l := word)] at hread
  have hsegments := Segment.ofTokens_word _ hread
  rw [List.drop_length] at hsegments
  rw [parse_of_scan hscan, Segment.ofTokens_of_eq_operand hsegments]

end Verdict

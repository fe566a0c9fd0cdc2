import Verdict.Proofs.Source.Literal
import Verdict.Proofs.Source.Reading

namespace Verdict

namespace Operand

open Formula

variable {tokens rest following : List Token} {text : List Char} {formula : Formula} {taken : Nat}

-- In lower case, alphanumeric characters are letters from a to z and digits.
theorem isName_of_isVariableName (hname : Lexeme.isVariableName text)
    (hlower : ∀ c ∈ text, Text.IsLower c) : IsName text := by
  simp only [Lexeme.isVariableName, Bool.and_eq_true, decide_eq_true_eq, List.all_eq_true,
    Bool.or_eq_true] at hname
  refine ⟨hname.1, fun c hc => ?_⟩
  have hupper := Text.isUpper_eq_false_of_isLower (hlower c hc)
  rcases hname.2 c hc with halphanum | hunder
  · simp only [Text.isAlphanum_eq, hupper, Bool.false_or, Bool.or_eq_true] at halphanum
    rcases halphanum with hletter | hdigit
    · exact .inl hletter
    · exact .inr (.inl hdigit)
  · exact .inr (.inr hunder)

-- One case for each kind of operand; the text of a literal goes on in the tokens that follow.
theorem wellFormed_of_spells (hfollowing : ∀ token ∈ following, token.IsPiece)
    (hspace : ' ' ∉ text) (hlower : ∀ c ∈ text, Text.IsLower c)
    (hspells : Spells following text formula taken) : formula.WellFormed := by
  cases hspells with
  | boolean value => trivial
  | number hnumber =>
      simp only [WellFormed, Constant.IsLiteral, String.toList_ofList]
      exact isNumeral_of_isNumber hlower hnumber
  | string hbody =>
      have hfirst := (List.forall_mem_cons.mp hlower).2
      have hglued := (isGlued_of_takeUntil? hfollowing (List.not_mem_of_not_mem_cons hspace) hbody).1
      simp only [WellFormed, Constant.IsLiteral, String.toList_ofList]
      exact ⟨isSpaced_of_isGlued (isLower_of_takeUntil? hfollowing hfirst hbody) hglued,
        (Text.isGlued_iff.mp hglued).2⟩
  | array hbody hitems =>
      have hfirst := (List.forall_mem_cons.mp hlower).2
      have hglued := (isGlued_of_takeUntil? hfollowing (List.not_mem_of_not_mem_cons hspace) hbody).1
      exact isLiteral_of_readArray (isLower_of_takeUntil? hfollowing hfirst hbody) hglued hitems
  | name hname hnumber htrue hfalse =>
      have hne : ∀ word : String, text ≠ word.toList → String.ofList text ≠ word := by
        rintro word hword rfl
        exact hword (by rw [String.toList_ofList])
      refine ⟨?_, hne "true" htrue, hne "false" hfalse, ?_⟩
      · rw [String.toList_ofList]
        exact isName_of_isVariableName hname hlower
      · rwa [String.toList_ofList]
  | count hname =>
      refine ⟨_, rfl, ?_⟩
      rw [String.toList_ofList]
      exact isName_of_isVariableName hname fun c hc => hlower c (List.mem_append_left _ hc)

theorem wellFormed_of_opens (htokens : ∀ token ∈ tokens, token.IsPiece)
    (hopens : Opens tokens formula rest) : formula.WellFormed := by
  cases hopens with
  | bool value => trivial
  | word marks text hspells =>
      obtain ⟨hword, hfollowing⟩ := List.forall_mem_cons.mp htokens
      have htext : ∀ c ∈ text, c ∈ (Token.word (String.ofList
          (List.replicate marks '!' ++ text))).text.toList := by
        intro c hc
        rw [Token.text, String.toList_ofList]
        exact List.mem_append_right _ hc
      have hbare := wellFormed_of_spells hfollowing (fun hmem => hword.space (htext ' ' hmem))
        (fun c hc => hword.lower c (htext c hc)) hspells
      exact wellFormed_repeat_not marks hspells.operators_eq_nil hbare

end Operand

namespace Formula

theorem wellFormed_of_ofTokens {tokens : List Token} {tree : Formula}
    (htokens : ∀ token ∈ tokens, token.IsPiece) (htree : ofTokens tokens = .ok (some tree)) :
    tree.WellFormed := by
  obtain ⟨operands, operators, hreading, hoperands, -⟩ := parts_of_ofTokens htree
  refine wellFormed_of_operands fun operand hmem => ?_
  have hread : operand ∈ operands := (Multiset.coe_eq_coe.mp hoperands).mem_iff.mp hmem
  obtain ⟨before, rest, hsuffix, hopens⟩ := hreading.exists_opens_of_mem hread
  exact Operand.wellFormed_of_opens (fun token htoken => htokens token (hsuffix.mem htoken)) hopens

-- Whatever a source that compiles is made of, the formula that it denotes is well-formed.
theorem parse_wellFormed {source : String} {tree : Formula}
    (hparse : parse source = .ok (some tree)) : tree.WellFormed := by
  obtain ⟨tokens, hscan, htree⟩ := exists_scan_of_parse hparse
  exact wellFormed_of_ofTokens (Token.isPiece_of_scan hscan) htree

-- A string of several pieces, an array with both kinds of items, a count that is negated twice, and
-- an operand too many in one place for an operator too many in another.
theorem parse_wellFormed_literals :
    parse "'It''s  X]' ['a]b  C', +.5E1] != == !!Y_1.count" =
        .ok (some (.binary .notEqual (.constant (.string "it''s x]"))
          (.binary .equal (.constant (.array [.string "a]b c", .number "+.5e1"]))
            (.not (.not (.count (.variable "y_1"))))))) ∧
      WellFormed (.binary .notEqual (.constant (.string "it''s x]"))
        (.binary .equal (.constant (.array [.string "a]b c", .number "+.5e1"]))
          (.not (.not (.count (.variable "y_1")))))) := by
  have hparse : parse "'It''s  X]' ['a]b  C', +.5E1] != == !!Y_1.count" =
      .ok (some (.binary .notEqual (.constant (.string "it''s x]"))
        (.binary .equal (.constant (.array [.string "a]b c", .number "+.5e1"]))
          (.not (.not (.count (.variable "y_1"))))))) := by decide +kernel
  exact ⟨hparse, parse_wellFormed hparse⟩

end Formula

end Verdict

import Verdict.Proofs.Source.Balance
import Verdict.Proofs.Source.Chain
import Verdict.Proofs.Source.Lexing
import Verdict.Proofs.Source.Printed
import Verdict.Proofs.Source.WellFormed

namespace Verdict

namespace Token

theorem tokens_symbol (op : Operator) :
    (lexemes op.symbol.toList).map ofLexeme = [.operator op] := by
  cases op <;> decide

end Token

namespace Operand

open Formula

-- A lexeme becomes a word unless it is a boolean or an operator. No operand contains an operator,
-- and one that is a boolean is read as that boolean either way.
theorem opens_of_spells {following : List Token} {text : List Char} {formula : Formula} {taken : Nat}
    (hspells : Spells following text formula taken) (marks : Nat) :
    Opens (Token.ofLexeme (List.replicate marks '!' ++ text) :: following)
      (Nat.repeat Formula.not marks formula) (following.drop taken) := by
  obtain ⟨c, rest, rfl, hc⟩ := hspells.exists_cons
  have htext := Token.text_ofLexeme (List.replicate marks '!' ++ c :: rest)
  cases htoken : Token.ofLexeme (List.replicate marks '!' ++ c :: rest) with
  | word word =>
      rw [htoken, Token.text] at htext
      rw [htext]
      exact .word marks _ hspells
  | operator op =>
      rw [htoken] at htext
      have hmem : c ∈ op.symbol.toList := by
        rw [show op.symbol = _ from htext, String.toList_ofList]
        simp
      have hsymbol : op.symbol.toList ⊆ operatorChars := by cases op <;> decide
      exact absurd (hsymbol hmem) hc
  | bool value =>
      rw [htoken] at htext
      have hword : (Token.bool value).text.toList = List.replicate marks '!' ++ c :: rest := by
        rw [htext, String.toList_ofList]
      cases marks with
      | succ marks => cases value <;> simp [Token.text, List.replicate_succ] at hword
      | zero =>
          have hboolean := readBare_of_spells (@Spells.boolean following value)
          rw [hword] at hboolean
          have hread := hboolean.symm.trans (readBare_of_spells hspells)
          simp only [Prod.mk.injEq, Except.ok.injEq, Entry.ofFormula, Entry.mk.injEq] at hread
          obtain ⟨⟨rfl, -⟩, rfl⟩ := hread
          exact .bool value following

-- Whatever tokens follow the text of an operand, the text is read as that operand.
theorem opens_flatChars {formula : Formula} (hoperand : formula.isOperand) (h : formula.WellFormed)
    (following : List Token) :
    Opens ((Token.lexemes formula.flatChars).map Token.ofLexeme ++ following) formula following := by
  obtain ⟨marks, first, more, bare, rfl, hsplit, hmore, hspells⟩ :=
    exists_pieces_of_wellFormed hoperand h
  have hfirst : List.replicate marks '!' ++ first ≠ [] := by
    obtain ⟨c, rest, rfl, -⟩ := (hspells []).exists_cons
    simp
  rw [Token.lexemes_of_splitOn hsplit (List.forall_mem_cons.mpr ⟨hfirst, hmore⟩)]
  have hopens := opens_of_spells (hspells following) marks
  rwa [List.drop_left' (by simp)] at hopens

end Operand

namespace Chain

open Formula

-- Reading back the text of a chain takes one operand or operator after the other.
theorem of_wellFormed {operand : Formula} {pairs : List (Operator × Formula)}
    (hoperand : operand.isOperand) (h : operand.WellFormed)
    (hoperands : ∀ pair ∈ pairs, pair.2.isOperand) (hpairs : ∀ pair ∈ pairs, pair.2.WellFormed) :
    Chain ((Token.lexemes (joinChars operand pairs)).map Token.ofLexeme) operand pairs := by
  induction pairs generalizing operand with
  | nil =>
      have hopens := Operand.opens_flatChars hoperand h []
      rw [List.append_nil] at hopens
      exact .last hopens
  | cons pair pairs ih =>
      obtain ⟨op, next⟩ := pair
      obtain ⟨hnext, hoperands⟩ := List.forall_mem_cons.mp hoperands
      obtain ⟨hwell, hpairs⟩ := List.forall_mem_cons.mp hpairs
      rw [joinChars, Token.lexemes_append, Token.lexemes_append, List.map_append, List.map_append,
        Token.tokens_symbol]
      exact .cons (Operand.opens_flatChars hoperand h _) (ih hnext hwell hoperands hpairs)

end Chain

namespace Formula

theorem scan_flat {tree : Formula} (h : tree.WellFormed) :
    Token.scan tree.flat = .ok ((Token.lexemes tree.flatChars).map Token.ofLexeme) := by
  have hne : tree.flat ≠ "" := by
    intro hempty
    exact flatChars_ne_nil h (String.ofList_eq_empty_iff.mp hempty)
  have hlower : Text.toLower tree.flat.toList = tree.flatChars := by
    rw [flat, String.toList_ofList, Text.toLower_eq_self_iff.mpr (isLower_flatChars h)]
  rw [Token.scan, if_neg hne, hlower]

-- A well-formed formula is read back from its text if bracketing its operands and operators gives
-- the formula again.
theorem parse_flat_of_wellFormed {tree : Formula} (h : tree.WellFormed)
    (hbracket : bracket tree.inOrder.1 tree.inOrder.2 = tree) (hdepth : tree.depth ≤ maxDepth) :
    parse tree.flat = .ok (some tree) := by
  obtain ⟨hoperand, hoperands⟩ := isOperand_inOrder tree
  obtain ⟨hfirst, hpairs⟩ := wellFormed_inOrder h
  have hchain := Chain.of_wellFormed hoperand hfirst hoperands hpairs
  rw [← flatChars_eq_joinChars] at hchain
  rw [hchain.parse_eq (scan_flat h), hbracket, limited_of_le hdepth]
  rfl

end Formula

end Verdict

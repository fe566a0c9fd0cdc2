import Verdict.Proofs.Source.Pieces
import Verdict.Proofs.Source.RoundTrip
import Verdict.Proofs.Text.Collapse

namespace Verdict

namespace Text

variable {text : List Char}

theorem toLower_collapse (hlower : toLower text = text) :
    toLower (collapse text) = collapse text :=
  toLower_eq_self_iff.mpr fun c hc => toLower_eq_self_iff.mp hlower c (mem_of_mem_collapse hc)

-- With its runs of spaces collapsed, a text is glued of pieces that do not end in the terminator
-- just if no space stands behind a terminator.
theorem isGlued_collapse {terminator : Char} (hterminator : terminator ≠ ' ') (text : List Char) :
    IsGlued terminator (collapse text) ↔ ¬[terminator, ' '] <:+: text := by
  have hchain : IsGlued terminator (collapse text) ↔
      text.IsChain fun c next => next = ' ' → c ≠ terminator := by
    induction text with
    | nil => exact iff_of_true .nil .nil
    | cons c rest ih =>
        rw [collapse_cons, List.isChain_cons, ← ih]
        split
        · rename_i hspaces
          refine ⟨fun h => ⟨fun _ _ _ => ?_, h⟩, And.right⟩
          rw [hspaces.1]
          exact hterminator.symm
        · rename_i hspaces
          rw [IsGlued, List.isChain_cons, head?_collapse, ← IsGlued]
          refine and_congr_left fun _ => forall₂_congr fun next hnext => forall_congr' fun hspace => ?_
          rw [hspace] at hnext
          exact and_iff_right fun hc => hspaces ⟨hc, hnext⟩
  rw [hchain, isChain_iff_forall_pair]
  constructor
  · exact fun h hpair => h terminator ' ' hpair rfl rfl
  · rintro h c next hpair rfl rfl
    exact h hpair

-- No piece between spaces ends in a terminator that neither the text nor anything in front of a
-- space ends in.
theorem getLast?_of_mem_splitOn {terminator : Char} (hspace : ¬[terminator, ' '] <:+: text)
    (hend : text.getLast? ≠ some terminator) :
    ∀ piece ∈ text.splitOn ' ', piece.getLast? ≠ some terminator := by
  revert hspace hend
  refine splitOn_induction ' ' (motive := fun text pieces => ¬[terminator, ' '] <:+: text →
    text.getLast? ≠ some terminator → ∀ piece ∈ pieces, piece.getLast? ≠ some terminator) ?_ ?_ text
  · intro piece _ _ hend
    exact List.forall_mem_singleton.mpr hend
  · intro piece rest _ ih hspace hend
    refine List.forall_mem_cons.mpr ⟨fun hlast => ?_, ih (fun hpair => hspace ?_) fun hlast => hend ?_⟩
    · obtain ⟨front, rfl⟩ := List.getLast?_eq_some_iff.mp hlast
      exact hspace ⟨front, rest, by simp⟩
    · exact hpair.trans (List.suffix_append_of_suffix (List.suffix_cons _ _)).isInfix
    · obtain ⟨front, rfl⟩ := List.getLast?_eq_some_iff.mp hlast
      rw [← List.cons_append, ← List.append_assoc, List.getLast?_concat]

end Text

namespace Token

-- A lexeme that starts like neither a boolean nor an operator is a word.
theorem ofLexeme_eq_word {c : Char} (rest : List Char) (htrue : c ≠ 't') (hfalse : c ≠ 'f')
    (hop : c ∉ Operand.operatorChars) :
    ofLexeme (c :: rest) = .word (String.ofList (c :: rest)) := by
  have htext := congrArg String.toList (text_ofLexeme (c :: rest))
  rw [String.toList_ofList] at htext
  cases htoken : ofLexeme (c :: rest) with
  | bool value =>
      rw [htoken] at htext
      cases value with
      | true => exact absurd (List.cons.inj htext).1.symm htrue
      | false => exact absurd (List.cons.inj htext).1.symm hfalse
  | operator op =>
      rw [htoken] at htext
      have hsymbol : op.symbol.toList ⊆ Operand.operatorChars := by cases op <;> decide
      have hmem : c ∈ op.symbol.toList := by
        rw [show op.symbol.toList = c :: rest from htext]
        exact List.mem_cons_self
      exact absurd (hsymbol hmem) hop
  | word word =>
      rw [htoken] at htext
      rw [← htext]
      exact congrArg Token.word String.ofList_toList.symm

end Token

namespace Operand

variable {terminator : Char} {piece first : List Char} {tokens following : List Token}

theorem takeUntil?_eq_none (hpiece : piece.getLast? ≠ some terminator)
    (htokens : ∀ token ∈ tokens, token.text.toList.getLast? ≠ some terminator) :
    takeUntil? terminator piece tokens = none := by
  induction tokens generalizing piece with
  | nil => simp [takeUntil?, hpiece]
  | cons token tokens ih =>
      obtain ⟨htoken, hrest⟩ := List.forall_mem_cons.mp htokens
      rw [takeUntil?_of_continue hpiece, ih htoken hrest]
      rfl

-- A string that is never closed takes up all tokens.
theorem read_of_unclosed (hnone : takeUntil? '\'' first following = none) :
    read ('\'' :: first) following = (.error .unclosedLiteral, following.length) := by
  have hbare : readBare ('\'' :: first) following = (.error .unclosedLiteral, following.length) := by
    rw [readBare, if_neg (by simp), if_neg (by simp), if_neg (by simp [Lexeme.isNumber])]
    simp only [hnone]
  have hread := read_marks 0 first following (c := '\'') (by decide)
  rw [hbare] at hread
  exact hread

end Operand

namespace Formula

variable {text : List Char}

-- Only the number of spaces in a row is lost on the way from a text between two characters.
theorem parse_enclosed {opening closing : Char} (hopening : opening ≠ ' ') (hclosing : closing ≠ ' ')
    (text : List Char) :
    parse (String.ofList (opening :: (text ++ [closing]))) =
      parse (String.ofList (opening :: (Text.collapse text ++ [closing]))) := by
  rw [parse, parse, Token.scan_of_ne_empty (by simp), Token.scan_of_ne_empty (by simp),
    String.toList_ofList, String.toList_ofList, ← Text.squeeze_enclosed hopening hclosing,
    Token.lexemes_toLower_squeeze]

theorem parse_unclosed (hlower : Text.toLower text = text) (hspace : ¬['\'', ' '] <:+: text)
    (hend : text.getLast? ≠ some '\'') :
    parse (String.ofList ('\'' :: text)) = .error .unclosedLiteral := by
  obtain ⟨first, more, hsplit⟩ := List.exists_cons_of_ne_nil (List.splitOn_ne_nil ' ' text)
  have hpieces := Text.getLast?_of_mem_splitOn hspace hend
  rw [hsplit, List.forall_mem_cons] at hpieces
  have hlexemes : Token.lexemes ('\'' :: text) = ('\'' :: first) :: more.filter (· ≠ []) := by
    have hquote := Text.splitOn_append_of_notMem ['\''] (by decide) hsplit
    rw [List.cons_append, List.nil_append, List.cons_append, List.nil_append] at hquote
    rw [Token.lexemes, hquote]
    exact List.filter_cons_of_pos (by simp)
  have hquoted : Text.toLower ('\'' :: text) = '\'' :: text :=
    Text.toLower_eq_self_iff.mpr
      (List.forall_mem_cons.mpr ⟨by decide +kernel, Text.toLower_eq_self_iff.mp hlower⟩)
  have hsource : String.ofList ('\'' :: text) ≠ "" := by simp
  have hscan := Token.scan_of_ne_empty hsource
  rw [String.toList_ofList, hquoted, hlexemes, List.map_cons,
    Token.ofLexeme_eq_word first (by decide) (by decide) (by decide)] at hscan
  have hnone : Operand.takeUntil? '\'' first ((more.filter (· ≠ [])).map Token.ofLexeme) = none := by
    refine Operand.takeUntil?_eq_none hpieces.1 fun token htoken => ?_
    obtain ⟨lexeme, hlexeme, rfl⟩ := List.mem_map.mp htoken
    rw [Token.text_ofLexeme, String.toList_ofList]
    exact hpieces.2 lexeme (List.mem_of_mem_filter hlexeme)
  exact parse_of_read hscan (Operand.read_of_unclosed hnone)

-- A text between quotes denotes just itself, with its runs of spaces collapsed, unless a space
-- stands behind a quote in it and so closes the string there. Without a quote at its end the string
-- is not closed.
theorem parse_quoted (hlower : Text.toLower text = text) :
    (parse (String.ofList ('\'' :: (text ++ ['\'']))) =
        .ok (some (.constant (.string (String.ofList (Text.collapse text))))) ↔
      ¬['\'', ' '] <:+: text) ∧
    (¬['\'', ' '] <:+: text → text.getLast? ≠ some '\'' →
      parse (String.ofList ('\'' :: text)) = .error .unclosedLiteral) := by
  refine ⟨?_, parse_unclosed hlower⟩
  have hwellFormed : (constant (.string (String.ofList (Text.collapse text)))).WellFormed ↔
      Text.IsGlued '\'' (Text.collapse text) := by
    rw [Text.isGlued_iff, WellFormed, Constant.IsLiteral, String.toList_ofList]
    exact and_congr_left fun _ => ⟨fun h => h.spaces, fun h => ⟨Text.toLower_collapse hlower, h⟩⟩
  rw [← Text.isGlued_collapse (by decide), ← hwellFormed, parse_enclosed (by decide) (by decide)]
  constructor
  · intro hparse
    obtain ⟨tokens, hscan, htree⟩ := exists_scan_of_parse hparse
    exact wellFormed_of_ofTokens (Token.isPiece_of_scan hscan) htree
  · intro hwell
    have hflat := parse_flat_of_wellFormed hwell (bracket_nil _) (by simp [depth, maxDepth])
    rwa [flat, flatChars, Constant.chars, String.toList_ofList] at hflat

-- Quotes, brackets, a boolean, an operator and spaces at both ends are nothing special in a text.
theorem parse_quoted_spaced :
    parse "'  it''s   true || [1,  'x'] '" =
        .ok (some (.constant (.string " it''s true || [1, 'x'] "))) ∧
      parse "'  it''s   true || [1,  'x'] " = .error .unclosedLiteral ∧
      parse "'a' b'" ≠ .ok (some (.constant (.string "a' b"))) := by
  have hlower : Text.toLower "  it''s   true || [1,  'x'] ".toList =
      "  it''s   true || [1,  'x'] ".toList := by decide +kernel
  have hspace : ¬['\'', ' '] <:+: "  it''s   true || [1,  'x'] ".toList := by decide
  have hother : Text.toLower "a' b".toList = "a' b".toList := by decide +kernel
  exact ⟨(parse_quoted hlower).1.mpr hspace, (parse_quoted hlower).2 hspace (by decide),
    fun hparse => (parse_quoted hother).1.mp hparse (by decide)⟩

end Formula

end Verdict

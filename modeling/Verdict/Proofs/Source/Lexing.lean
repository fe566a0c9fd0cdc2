import Verdict.Expression
import Verdict.Proofs.Text.Folding
import Verdict.Proofs.Text.Spaces

namespace Verdict

namespace Token

-- What a rule makes of a lexeme. Booleans and operators are written in one way each, and a word is
-- any run of characters that are no spaces.
inductive Matches : List Char → Token → Prop
  | bool (value : Bool) : Matches (Token.bool value).text.toList (.bool value)
  | operator (op : Operator) : Matches op.symbol.toList (.operator op)
  | word {lexeme : List Char} (hne : lexeme ≠ []) (hspace : ' ' ∉ lexeme) :
      Matches lexeme (.word (String.ofList lexeme))

-- The longest lexeme at the start of a text that any rule matches, and its token. Where several
-- rules match it, it is not a word.
structure Longest (text lexeme : List Char) (token : Token) : Prop where
  start : lexeme <+: text
  fits : Matches lexeme token
  longest : ∀ other made, other <+: text → Matches other made → other.length ≤ lexeme.length
  preferred : ∀ made, Matches lexeme made → made = token ∨ made = .word (String.ofList lexeme)

-- Cutting a text into longest lexemes, spaces being passed over.
inductive Scans : List Char → List Token → Prop
  | done : Scans [] []
  | space {rest : List Char} {tokens : List Token} (hrest : Scans rest tokens) :
      Scans (' ' :: rest) tokens
  | token {lexeme rest : List Char} {token : Token} {tokens : List Token}
      (hlongest : Longest (lexeme ++ rest) lexeme token) (hrest : Scans rest tokens) :
      Scans (lexeme ++ rest) (token :: tokens)

variable {text lexeme rest : List Char} {token : Token} {tokens : List Token}

section Lexemes

theorem squeeze_eq_lexemes (text : List Char) :
    Text.squeeze text = [' '].intercalate (lexemes text) := Text.squeeze_eq_intercalate text

theorem of_mem_lexemes (hmem : lexeme ∈ lexemes text) : lexeme ≠ [] ∧ ' ' ∉ lexeme := by
  obtain ⟨hpiece, hne⟩ := List.mem_filter.mp hmem
  exact ⟨by simpa using hne, (Text.of_mem_splitOn hpiece).1⟩

theorem lexemes_append (text more : List Char) :
    lexemes (text ++ ' ' :: more) = lexemes text ++ lexemes more := by
  rw [lexemes, List.splitOn_append_cons_self, List.filter_append]
  rfl

theorem lexemes_space (rest : List Char) : lexemes (' ' :: rest) = lexemes rest :=
  lexemes_append [] rest

theorem lexemes_of_splitOn {pieces : List (List Char)} (hsplit : text.splitOn ' ' = pieces)
    (hpieces : ∀ piece ∈ pieces, piece ≠ []) : lexemes text = pieces := by
  rw [lexemes, hsplit]
  exact List.filter_eq_self.mpr fun piece hpiece => by simpa using hpieces piece hpiece

theorem lexemes_of_notMem (hne : lexeme ≠ []) (hspace : ' ' ∉ lexeme) :
    lexemes lexeme = [lexeme] :=
  lexemes_of_splitOn (List.splitOn_eq_singleton hspace) (List.forall_mem_singleton.mpr hne)

theorem lexemes_intercalate {pieces : List (List Char)}
    (hpieces : ∀ piece ∈ pieces, piece ≠ [] ∧ ' ' ∉ piece) :
    lexemes ([' '].intercalate pieces) = pieces := by
  by_cases hnil : pieces = []
  · rw [hnil]
    rfl
  · have hsplit := List.splitOn_intercalate ' ' (fun piece hmem => (hpieces piece hmem).2) hnil
    exact lexemes_of_splitOn hsplit fun piece hmem => (hpieces piece hmem).1

-- Squeezing a text leaves its lexemes as they are.
theorem lexemes_squeeze (text : List Char) : lexemes (Text.squeeze text) = lexemes text := by
  rw [squeeze_eq_lexemes]
  exact lexemes_intercalate fun _ => of_mem_lexemes

theorem lexemes_toLower (text : List Char) :
    lexemes (Text.toLower text) = (lexemes text).map Text.toLower := by
  rw [lexemes, Text.splitOn_toLower, List.filter_map, lexemes]
  refine congrArg (List.map Text.toLower) (List.filter_congr fun piece _ => ?_)
  simp only [Function.comp_apply, ne_eq, Text.toLower_eq_nil_iff]

end Lexemes

section Longest

theorem Matches.ne_nil (h : Matches lexeme token) : lexeme ≠ [] := by
  cases h with
  | bool value => cases value <;> decide
  | operator op => cases op <;> decide
  | word hne => exact hne

theorem Matches.space_notMem (h : Matches lexeme token) : ' ' ∉ lexeme := by
  cases h with
  | bool value => cases value <;> decide
  | operator op => cases op <;> decide
  | word _ hspace => exact hspace

theorem ofLexeme_bool (value : Bool) :
    ofLexeme (Token.bool value).text.toList = .bool value := by
  cases value <;> decide

theorem ofLexeme_symbol (op : Operator) : ofLexeme op.symbol.toList = .operator op := by
  cases op <;> decide

theorem Matches.eq_or_eq (h : Matches lexeme token) :
    token = ofLexeme lexeme ∨ token = .word (String.ofList lexeme) := by
  cases h with
  | bool value => exact .inl (ofLexeme_bool value).symm
  | operator op => exact .inl (ofLexeme_symbol op).symm
  | word => exact .inr rfl

theorem matches_ofLexeme (hne : lexeme ≠ []) (hspace : ' ' ∉ lexeme) :
    Matches lexeme (ofLexeme lexeme) := by
  have htext := congrArg String.toList (text_ofLexeme lexeme)
  rw [String.toList_ofList] at htext
  cases htoken : ofLexeme lexeme with
  | bool value =>
      rw [htoken] at htext
      exact htext ▸ .bool value
  | operator op =>
      rw [htoken] at htext
      exact htext ▸ .operator op
  | word word =>
      rw [htoken] at htext
      have hword : word = String.ofList lexeme := by
        rw [← htext]
        exact String.ofList_toList.symm
      exact hword ▸ .word hne hspace

-- In front of a space or the end of the text no rule matches more than the lexeme there.
theorem longest_ofLexeme (hne : lexeme ≠ []) (hspace : ' ' ∉ lexeme)
    (hrest : rest = [] ∨ ∃ more, rest = ' ' :: more) :
    Longest (lexeme ++ rest) lexeme (ofLexeme lexeme) where
  start := List.prefix_append lexeme rest
  fits := matches_ofLexeme hne hspace
  longest := by
    intro other made hother hmade
    rcases hrest with rfl | ⟨more, rfl⟩
    · rw [List.append_nil] at hother
      exact hother.length_le
    · by_contra hlonger
      have hfirst : lexeme ++ [' '] <+: lexeme ++ ' ' :: more := by simp
      have hwithin := List.prefix_of_prefix_length_le hfirst hother (by simp; omega)
      exact hmade.space_notMem (hwithin.subset (by simp))
  preferred := fun _ hmade => hmade.eq_or_eq

-- A longest lexeme ends at a space or at the end of the text, since a word could be longer.
theorem Longest.rest_cases (h : Longest (lexeme ++ rest) lexeme token) :
    rest = [] ∨ ∃ more, rest = ' ' :: more := by
  cases rest with
  | nil => exact .inl rfl
  | cons c more =>
      by_cases hc : c = ' '
      · exact .inr ⟨more, by rw [hc]⟩
      · have hspace : ' ' ∉ lexeme ++ [c] := by
          simp [h.fits.space_notMem, Ne.symm hc]
        have hlength := h.longest (lexeme ++ [c]) _ (by simp) (.word (by simp) hspace)
        rw [List.length_append, List.length_singleton] at hlength
        omega

theorem Longest.eq_ofLexeme (h : Longest text lexeme token) : token = ofLexeme lexeme := by
  rcases h.fits.eq_or_eq with htoken | hword
  · exact htoken
  · rcases h.preferred _ (matches_ofLexeme h.fits.ne_nil h.fits.space_notMem) with heq | heq
    · exact heq.symm
    · rw [hword, heq]

theorem Scans.eq_lexemes (h : Scans text tokens) : tokens = (lexemes text).map ofLexeme := by
  induction h with
  | done => rfl
  | space _ ih => rw [lexemes_space, ih]
  | token hlongest _ ih =>
      have hne := hlongest.fits.ne_nil
      have hspace := hlongest.fits.space_notMem
      rcases hlongest.rest_cases with rfl | ⟨more, rfl⟩
      · rw [List.append_nil, lexemes_of_notMem hne hspace, hlongest.eq_ofLexeme, ih]
        rfl
      · rw [lexemes_append, lexemes_of_notMem hne hspace, hlongest.eq_ofLexeme, ih, lexemes_space]
        rfl

theorem scans_lexemes (text : List Char) : Scans text ((lexemes text).map ofLexeme) := by
  refine Text.splitOn_induction ' '
    (motive := fun text _ => Scans text ((lexemes text).map ofLexeme)) ?_ ?_ text
  · intro piece hpiece
    by_cases hne : piece = []
    · subst hne
      exact .done
    · have hlongest := @longest_ofLexeme _ [] hne hpiece (.inl rfl)
      have hscans := Scans.token hlongest .done
      rw [List.append_nil] at hscans
      rwa [lexemes_of_notMem hne hpiece]
  · intro piece rest hpiece ih
    by_cases hne : piece = []
    · subst hne
      rw [List.nil_append, lexemes_space]
      exact .space ih
    · rw [lexemes_append, lexemes_of_notMem hne hpiece]
      exact .token (longest_ofLexeme hne hpiece (.inr ⟨rest, rfl⟩)) (.space ih)

-- The tokens of longest lexemes are those between the spaces.
theorem scans_iff : Scans text tokens ↔ tokens = (lexemes text).map ofLexeme :=
  ⟨Scans.eq_lexemes, fun h => h ▸ scans_lexemes text⟩

end Longest

section Scan

-- The texts of tokens with one space between each two.
def joined (tokens : List Token) : String := " ".intercalate (tokens.map Token.text)

-- Whether a token is of the kind that its text asks for as a whole.
structure IsExact (token : Token) : Prop where
  ne_empty : token.text ≠ ""
  space : ' ' ∉ token.text.toList
  bool : ∀ value, token = .bool value ↔ token.text = (Token.bool value).text
  operator : ∀ op, token = .operator op ↔ token.text = op.symbol
  word : (∃ word, token = .word word) ↔
    (∀ value, token.text ≠ (Token.bool value).text) ∧ ∀ op : Operator, token.text ≠ op.symbol

theorem toList_joined (lexemes : List (List Char)) :
    (joined (lexemes.map ofLexeme)).toList = [' '].intercalate lexemes := by
  have htexts : ((lexemes.map ofLexeme).map Token.text).map String.toList = lexemes := by
    rw [List.map_map, List.map_map]
    refine (List.map_congr_left fun lexeme _ => ?_).trans (List.map_id _)
    simp only [Function.comp_apply, text_ofLexeme, String.toList_ofList, id]
  rw [joined, String.toList_intercalate, htexts]
  rfl

theorem ofLexeme_eq_iff (hliteral : ofLexeme token.text.toList = token) :
    ofLexeme lexeme = token ↔ (ofLexeme lexeme).text = token.text := by
  refine ⟨congrArg Token.text, fun htext => ?_⟩
  rw [text_ofLexeme] at htext
  rw [← hliteral, ← htext, String.toList_ofList]

theorem ofLexeme_eq_bool_iff (value : Bool) :
    ofLexeme lexeme = .bool value ↔ (ofLexeme lexeme).text = (Token.bool value).text :=
  ofLexeme_eq_iff (ofLexeme_bool value)

theorem ofLexeme_eq_operator_iff (op : Operator) :
    ofLexeme lexeme = .operator op ↔ (ofLexeme lexeme).text = op.symbol := by
  have hliteral : ofLexeme (Token.operator op).text.toList = .operator op := ofLexeme_symbol op
  exact ofLexeme_eq_iff hliteral

theorem isExact_ofLexeme (hne : lexeme ≠ []) (hspace : ' ' ∉ lexeme) :
    (ofLexeme lexeme).IsExact where
  ne_empty := by
    rw [text_ofLexeme]
    exact fun hempty => hne (String.ofList_eq_empty_iff.mp hempty)
  space := by rwa [text_ofLexeme, String.toList_ofList]
  bool := ofLexeme_eq_bool_iff
  operator := ofLexeme_eq_operator_iff
  word := by
    constructor
    · rintro ⟨word, hword⟩
      constructor
      · intro value htext
        cases hword.symm.trans ((ofLexeme_eq_bool_iff value).mpr htext)
      · intro op htext
        cases hword.symm.trans ((ofLexeme_eq_operator_iff op).mpr htext)
    · rintro ⟨hbool, hop⟩
      cases htoken : ofLexeme lexeme with
      | bool value => exact absurd (congrArg Token.text htoken) (hbool value)
      | operator op => exact absurd (congrArg Token.text htoken) (hop op)
      | word word => exact ⟨word, rfl⟩

theorem scan_of_ne_empty {source : String} (hsource : source ≠ "") :
    scan source = .ok ((lexemes (Text.toLower source.toList)).map ofLexeme) := by
  rw [scan, if_neg hsource]

theorem lexemes_toLower_squeeze (text : List Char) :
    lexemes (Text.toLower (Text.squeeze text)) = lexemes (Text.toLower text) := by
  rw [lexemes_toLower, lexemes_squeeze, lexemes_toLower]

-- Two texts that are the same but for the case of ASCII letters and the lengths of their runs of
-- spaces have the same lexemes in lower case.
theorem lexemes_toLower_congr {left right : List Char}
    (h : Text.squeeze (left.map Char.toLower) = Text.squeeze (right.map Char.toLower)) :
    lexemes (Text.toLower left) = lexemes (Text.toLower right) :=
  calc lexemes (Text.toLower left)
    _ = lexemes (Text.toLower (Text.squeeze (left.map Char.toLower))) := by
      rw [lexemes_toLower_squeeze, Text.toLower_map]
    _ = lexemes (Text.toLower (Text.squeeze (right.map Char.toLower))) := by rw [h]
    _ = lexemes (Text.toLower right) := by rw [lexemes_toLower_squeeze, Text.toLower_map]

theorem toList_joined_scan (text : List Char) :
    (joined ((lexemes text).map ofLexeme)).toList = Text.squeeze text := by
  rw [toList_joined, squeeze_eq_lexemes]

-- The text of the tokens of a source is a source with these tokens, if there are any.
theorem scan_joined (text : List Char)
    (hjoined : joined ((lexemes (Text.toLower text)).map ofLexeme) ≠ "") :
    scan (joined ((lexemes (Text.toLower text)).map ofLexeme)) =
      .ok ((lexemes (Text.toLower text)).map ofLexeme) := by
  rw [scan_of_ne_empty hjoined, toList_joined_scan, lexemes_toLower_squeeze, Text.toLower_toLower]

end Scan

end Token

-- The tokens of a source are the one way to cut it into longest lexemes, in lower case. Their texts
-- with single spaces between them are all of it but for the number of its spaces, each is a boolean
-- or an operator just if its whole text is one, and they are the tokens of that text too. Sources
-- that differ only in the case of ASCII letters and in their runs of spaces are the same to the
-- reader.
theorem scan_squeezed :
    (∀ source : String, source ≠ "" → ∃ tokens, Token.scan source = .ok tokens ∧
        (∀ made, Token.Scans (Text.toLower source.toList) made ↔ made = tokens) ∧
        (Token.joined tokens).toList = Text.squeeze (Text.toLower source.toList) ∧
        (∀ token ∈ tokens, token.IsExact) ∧
        (Token.joined tokens ≠ "" → Token.scan (Token.joined tokens) = .ok tokens)) ∧
      ∀ left right : String, left ≠ "" → right ≠ "" →
        Text.squeeze (left.toList.map Char.toLower) = Text.squeeze (right.toList.map Char.toLower) →
          Formula.parse left = Formula.parse right ∧
            ∀ context, evaluate left context = evaluate right context := by
  constructor
  · intro source hsource
    refine ⟨_, Token.scan_of_ne_empty hsource, fun _ => Token.scans_iff,
      Token.toList_joined_scan _, fun token hmem => ?_, Token.scan_joined _⟩
    obtain ⟨lexeme, hlexeme, rfl⟩ := List.mem_map.mp hmem
    obtain ⟨hne, hspace⟩ := Token.of_mem_lexemes hlexeme
    exact Token.isExact_ofLexeme hne hspace
  · intro left right hleft hright hsame
    have hparse : Formula.parse left = Formula.parse right := by
      rw [Formula.parse, Formula.parse, Token.scan_of_ne_empty hleft, Token.scan_of_ne_empty hright,
        Token.lexemes_toLower_congr hsame]
    refine ⟨hparse, fun context => ?_⟩
    rw [evaluate, evaluate, Expression.compile, Expression.compile, hparse]

-- A sigma is final in front of spaces as it is at the end of a text, and what only starts with an
-- operator is a word.
theorem scan_squeezed_sigma :
    (∃ tokens, Token.scan "  ΟΔΟΣ   >=>  TRUE" = .ok tokens ∧
        Token.joined tokens = "οδος >=> true" ∧ ∀ token ∈ tokens, token.IsExact) ∧
      Formula.parse "X != 'ΟΔΟΣ   A' " = Formula.parse "  x  != 'ΟΔΟΣ a'" ∧
      evaluate "X != 'ΟΔΟΣ   A' " .empty = evaluate "  x  != 'ΟΔΟΣ a'" .empty := by
  obtain ⟨hscan, hsame⟩ := scan_squeezed
  obtain ⟨tokens, htokens, -, hjoined, hexact, -⟩ := hscan "  ΟΔΟΣ   >=>  TRUE" (by decide)
  have htext : Text.squeeze (Text.toLower "  ΟΔΟΣ   >=>  TRUE".toList) =
      "οδος >=> true".toList := by decide +kernel
  have hsource := hsame "X != 'ΟΔΟΣ   A' " "  x  != 'ΟΔΟΣ a'" (by decide) (by decide)
    (by decide +kernel)
  exact ⟨⟨tokens, htokens, String.toList_inj.mp (hjoined.trans htext), hexact⟩, hsource.1,
    hsource.2 .empty⟩

end Verdict

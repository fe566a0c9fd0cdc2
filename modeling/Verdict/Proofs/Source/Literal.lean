import Verdict.Proofs.Formula.WellFormed
import Verdict.Proofs.Source.Operand
import Verdict.Proofs.Text.LowerCase
import Verdict.Proofs.Text.Split

namespace Verdict

namespace Text

-- Whether pieces without spaces can be glued to a text, none of them but the last ending in the
-- terminator: no space stands behind another space or behind the terminator.
def IsGlued (terminator : Char) (text : List Char) : Prop :=
  text.IsChain fun c next => next = ' ' → c ≠ ' ' ∧ c ≠ terminator

theorem isGlued_iff {terminator : Char} {text : List Char} :
    IsGlued terminator text ↔ ¬[' ', ' '] <:+: text ∧ ¬[terminator, ' '] <:+: text := by
  rw [IsGlued, isChain_iff_forall_pair]
  constructor
  · intro h
    exact ⟨fun hpair => (h ' ' ' ' hpair rfl).1 rfl, fun hpair => (h terminator ' ' hpair rfl).2 rfl⟩
  · rintro ⟨hspaces, hterminator⟩ c next hpair rfl
    constructor
    · rintro rfl
      exact hspaces hpair
    · rintro rfl
      exact hterminator hpair

theorem isGlued_of_notMem {text : List Char} (terminator : Char) (hspace : ' ' ∉ text) :
    IsGlued terminator text := by
  rw [IsGlued, isChain_iff_forall_pair]
  intro c next hpair hnext
  exact absurd (hpair.mem (by simp [hnext])) hspace

end Text

-- What a source is cut into: no space and no capital is left in it.
structure Token.IsPiece (token : Token) : Prop where
  ne_nil : token.text.toList ≠ []
  space : ' ' ∉ token.text.toList
  lower : ∀ c ∈ token.text.toList, Text.IsLower c

theorem Token.isPiece_of_scan {source : String} {tokens : List Token}
    (hscan : scan source = .ok tokens) : ∀ token ∈ tokens, token.IsPiece := by
  intro token hmem
  unfold scan at hscan
  split at hscan
  · cases hscan
  cases hscan
  obtain ⟨lexeme, hlexeme, rfl⟩ := List.mem_map.mp hmem
  obtain ⟨hpiece, hne⟩ := List.mem_filter.mp hlexeme
  obtain ⟨hspace, hwithin⟩ := Text.of_mem_splitOn hpiece
  have htext : (ofLexeme lexeme).text.toList = lexeme := by
    rw [text_ofLexeme, String.toList_ofList]
  refine ⟨?_, ?_, ?_⟩
  · rw [htext]
    simpa using hne
  · rwa [htext]
  · intro c hc
    rw [htext] at hc
    exact Text.isLower_of_mem_toLower (hwithin.mem hc)

namespace Operand

variable {terminator : Char} {piece body : List Char} {tokens : List Token} {taken : Nat}

theorem takeUntil?_of_end (hend : piece.getLast? = some terminator) (tokens : List Token) :
    takeUntil? terminator piece tokens = some (piece.dropLast, 0) := by
  cases tokens <;> simp [takeUntil?, hend]

theorem takeUntil?_of_continue (hend : piece.getLast? ≠ some terminator) (token : Token)
    (tokens : List Token) :
    takeUntil? terminator piece (token :: tokens) =
      (takeUntil? terminator token.text.toList tokens).map fun (text, taken) =>
        (piece ++ ' ' :: text, taken + 1) := by
  rw [takeUntil?, if_neg hend]

-- A literal ends with its first piece, or the pieces that follow make up its rest.
theorem takeUntil?_cases (htake : takeUntil? terminator piece tokens = some (body, taken)) :
    (piece.getLast? = some terminator ∧ body = piece.dropLast ∧ taken = 0) ∨
      ∃ token rest text count, piece.getLast? ≠ some terminator ∧ tokens = token :: rest ∧
        takeUntil? terminator token.text.toList rest = some (text, count) ∧
        body = piece ++ ' ' :: text ∧ taken = count + 1 := by
  by_cases hend : piece.getLast? = some terminator
  · rw [takeUntil?_of_end hend, Option.some.injEq, Prod.mk.injEq] at htake
    exact .inl ⟨hend, htake.1.symm, htake.2.symm⟩
  · cases tokens with
    | nil => simp [takeUntil?, hend] at htake
    | cons token rest =>
        rw [takeUntil?_of_continue hend] at htake
        obtain ⟨⟨text, count⟩, hrest, heq⟩ := Option.map_eq_some_iff.mp htake
        cases heq
        exact .inr ⟨token, rest, text, count, hend, rfl, hrest, rfl, rfl⟩

-- The pieces of a literal are glued with single spaces, and only the last ends in the terminator.
theorem isGlued_of_takeUntil? (htokens : ∀ token ∈ tokens, token.IsPiece) (hpiece : ' ' ∉ piece)
    (htake : takeUntil? terminator piece tokens = some (body, taken)) :
    Text.IsGlued terminator body ∧ (piece ≠ [] → ' ' ∉ body.head?) := by
  induction tokens generalizing piece body taken with
  | nil =>
      rcases takeUntil?_cases htake with ⟨-, rfl, -⟩ | ⟨_, _, _, _, _, htokens, _⟩
      · have hbody : ' ' ∉ piece.dropLast := fun hmem => hpiece (List.mem_of_mem_dropLast hmem)
        exact ⟨Text.isGlued_of_notMem _ hbody, fun _ hhead => hbody (List.mem_of_mem_head? hhead)⟩
      · cases htokens
  | cons token rest ih =>
      rcases takeUntil?_cases htake with ⟨-, rfl, -⟩ | ⟨_, _, text, count, hend, heq, hrest, rfl, -⟩
      · have hbody : ' ' ∉ piece.dropLast := fun hmem => hpiece (List.mem_of_mem_dropLast hmem)
        exact ⟨Text.isGlued_of_notMem _ hbody, fun _ hhead => hbody (List.mem_of_mem_head? hhead)⟩
      · cases heq
        obtain ⟨htoken, hmore⟩ := List.forall_mem_cons.mp htokens
        obtain ⟨hglued, hhead⟩ := ih hmore htoken.space hrest
        constructor
        · refine List.isChain_append.mpr ⟨Text.isGlued_of_notMem _ hpiece, ?_, ?_⟩
          · refine List.isChain_cons.mpr ⟨fun next hnext hspace => ?_, hglued⟩
            rw [hspace] at hnext
            exact absurd hnext (hhead htoken.ne_nil)
          · intro last hlast _ _ _
            constructor
            · rintro rfl
              exact hpiece (List.mem_of_mem_getLast? hlast)
            · rintro rfl
              exact hend hlast
        · intro hne hspace
          rw [List.head?_append_of_ne_nil _ hne] at hspace
          exact hpiece (List.mem_of_mem_head? hspace)

theorem isLower_of_takeUntil? (htokens : ∀ token ∈ tokens, token.IsPiece)
    (hpiece : ∀ c ∈ piece, Text.IsLower c)
    (htake : takeUntil? terminator piece tokens = some (body, taken)) :
    ∀ c ∈ body, Text.IsLower c := by
  induction tokens generalizing piece body taken with
  | nil =>
      rcases takeUntil?_cases htake with ⟨-, rfl, -⟩ | ⟨_, _, _, _, _, htokens, _⟩
      · exact fun c hc => hpiece c (List.mem_of_mem_dropLast hc)
      · cases htokens
  | cons token rest ih =>
      rcases takeUntil?_cases htake with ⟨-, rfl, -⟩ | ⟨_, _, text, count, hend, heq, hrest, rfl, -⟩
      · exact fun c hc => hpiece c (List.mem_of_mem_dropLast hc)
      · cases heq
        obtain ⟨htoken, hmore⟩ := List.forall_mem_cons.mp htokens
        intro c hc
        rcases List.mem_append.mp hc with hc | hc
        · exact hpiece c hc
        · rcases List.mem_cons.mp hc with rfl | hc
          · decide +kernel
          · exact ih hmore htoken.lower hrest c hc

theorem unquote?_eq_some_iff {text : List Char} :
    unquote? piece = some text ↔ piece = '\'' :: (text ++ ['\'']) := by
  constructor
  · intro h
    unfold unquote? at h
    split at h
    · split at h
      · rename_i rest hlast
        obtain ⟨front, rfl⟩ := List.getLast?_eq_some_iff.mp hlast
        rw [List.dropLast_concat, Option.some.injEq] at h
        rw [h]
      · cases h
    · cases h
  · rintro rfl
    simp [unquote?]

theorem isNumeral_of_isNumber (hlower : ∀ c ∈ piece, Text.IsLower c)
    (hnumber : Lexeme.isNumber piece) : Constant.IsNumeral piece := by
  cases piece with
  | nil => cases hnumber
  | cons c rest =>
      simp only [Lexeme.isNumber, Bool.and_eq_true, Bool.or_eq_true, decide_eq_true_eq,
        Option.any_eq_true] at hnumber
      obtain ⟨hstart, value, hvalue, hfinite⟩ := hnumber
      refine ⟨⟨c, rest, rfl, by simpa [or_assoc] using hstart⟩, ?_,
        Text.toLower_eq_self_iff.mpr hlower⟩
      cases value with
      | finite value => exact ⟨value, hvalue⟩
      | infinity negative => cases hfinite
      | nan => cases hfinite

theorem isSpaced_of_isGlued (hlower : ∀ c ∈ piece, Text.IsLower c)
    (hglued : Text.IsGlued terminator piece) : Constant.IsSpaced piece :=
  ⟨Text.toLower_eq_self_iff.mpr hlower, (Text.isGlued_iff.mp hglued).1⟩

theorem isItem_of_readItem {item : Constant} (hlower : ∀ c ∈ piece, Text.IsLower c)
    (hcomma : ',' ∉ piece) (hglued : Text.IsGlued ']' piece) (hread : readItem piece = .ok item) :
    item.IsItem := by
  unfold readItem at hread
  split at hread
  · rename_i text hunquote
    cases hread
    have hwithin : text <:+: piece := by
      rw [unquote?_eq_some_iff.mp hunquote]
      exact ⟨['\''], ['\''], by simp⟩
    have htext : Text.IsGlued ']' text := List.IsChain.infix hglued hwithin
    have hlower : ∀ c ∈ text, Text.IsLower c := fun c hc => hlower c (hwithin.mem hc)
    simp only [Constant.IsItem, String.toList_ofList]
    exact ⟨isSpaced_of_isGlued hlower htext, fun hmem => hcomma (hwithin.mem hmem),
      (Text.isGlued_iff.mp htext).2⟩
  · split at hread
    · rename_i hnumber
      cases hread
      simp only [Constant.IsItem, String.toList_ofList]
      exact isNumeral_of_isNumber hlower hnumber
    · cases hread

-- The items between the commas of a text come from parts of it.
theorem isLiteral_of_readArray {array : Constant} (hlower : ∀ c ∈ body, Text.IsLower c)
    (hglued : Text.IsGlued ']' body) (hread : readArray body = .ok array) : array.IsLiteral := by
  unfold readArray at hread
  split at hread
  · cases hread
    simp [Constant.IsLiteral]
  obtain ⟨items, hitems, rfl⟩ := Except.map_eq_ok_iff.mp hread
  rw [Constant.IsLiteral]
  intro item hitem
  obtain ⟨piece, hpiece, hread⟩ := Except.exists_of_mem_mapM hitems hitem
  obtain ⟨hcomma, hwithin⟩ := Text.of_mem_splitOn hpiece
  have htrim : Text.trim piece <:+: body := (Text.trim_isInfix piece).trans hwithin
  have hpieceGlued : Text.IsGlued ']' (Text.trim piece) := List.IsChain.infix hglued htrim
  exact isItem_of_readItem (fun c hc => hlower c (htrim.mem hc))
    (fun hmem => hcomma ((Text.trim_isInfix piece).mem hmem)) hpieceGlued hread

end Operand

end Verdict

import Verdict.Proofs.Source.Enclosed

namespace Verdict

namespace Text

-- Whether a space stands nowhere behind a terminator is decided by the neighbours in a text.
theorem not_pair_infix_iff {terminator : Char} {text : List Char} :
    ¬[terminator, ' '] <:+: text ↔ text.IsChain fun c next => next = ' ' → c ≠ terminator := by
  rw [isChain_iff_forall_pair]
  constructor
  · rintro h c next hpair rfl rfl
    exact h hpair
  · exact fun h hpair => h terminator ' ' hpair rfl rfl

theorem trim_space_cons (text : List Char) : trim (' ' :: text) = trim text := by
  rw [trim, trimStart, List.dropWhile_cons_of_pos (by decide)]
  rfl

theorem trim_concat_space (text : List Char) : trim (text ++ [' ']) = trim text := by
  rw [trim, trimStart, List.dropWhile_append]
  split
  · rename_i hempty
    rw [trim, trimStart, List.isEmpty_iff.mp hempty]
    rfl
  · exact trimEnd_concat_of_isBlank (by decide) _

theorem trim_spaces (count : Nat) : trim (List.replicate count ' ') = [] := by
  induction count with
  | zero => rfl
  | succ count ih => rw [List.replicate_succ, trim_space_cons, ih]

end Text

namespace Operand

-- The ways to write an item of an array, each with the constant that it denotes. Spaces may stand on
-- both sides of an item; a string has no comma in it and no space behind a closing bracket.
inductive Writes : List Char → Constant → Prop
  | number {text : List Char} (hnumber : Lexeme.isNumber text) (hlower : Text.toLower text = text) :
    Writes text (.number (String.ofList text))
  | string {text : List Char} (hlower : Text.toLower text = text) (hcomma : ',' ∉ text)
    (hclosing : ¬[']', ' '] <:+: text) :
    Writes ('\'' :: (text ++ ['\''])) (.string (String.ofList (Text.collapse text)))
  | before {piece : List Char} {item : Constant} (h : Writes piece item) : Writes (' ' :: piece) item
  | after {piece : List Char} {item : Constant} (h : Writes piece item) :
    Writes (piece ++ [' ']) item

-- What keeps an item between its commas and within the brackets of the array.
structure IsPart (piece : List Char) : Prop where
  lower : ∀ c ∈ piece, Text.IsLower c
  comma : ',' ∉ piece
  closing : piece.IsChain fun c next => next = ' ' → c ≠ ']'
  last : ']' ∉ piece.getLast?

variable {piece : List Char} {item : Constant}

theorem isPart_number {text : List Char} (h : Constant.IsNumeral text) : IsPart text where
  lower := Text.toLower_eq_self_iff.mp h.lower
  comma := h.notMem (by decide)
  closing := Text.not_pair_infix_iff.mp fun hpair =>
    h.notMem (by decide) (hpair.mem (a := ']') (by simp))
  last := fun hlast => h.notMem (c := ']') (by decide) (List.mem_of_mem_getLast? hlast)

theorem isPart_string {text : List Char} (hlower : Text.toLower text = text) (hcomma : ',' ∉ text)
    (hclosing : ¬[']', ' '] <:+: text) : IsPart ('\'' :: (text ++ ['\''])) where
  lower := Constant.isLower_enclosed (by decide +kernel) (Text.toLower_eq_self_iff.mp hlower)
    (by decide +kernel)
  comma := by simp [hcomma]
  closing := by
    refine List.isChain_cons.mpr ⟨fun _ _ _ => by decide, List.isChain_append.mpr
      ⟨Text.not_pair_infix_iff.mp hclosing, .singleton _, ?_⟩⟩
    rintro last - next hnext rfl
    cases hnext
  last := by
    rw [← List.cons_append, List.getLast?_concat]
    decide

theorem IsPart.space_cons (h : IsPart piece) : IsPart (' ' :: piece) where
  lower := List.forall_mem_cons.mpr ⟨by decide +kernel, h.lower⟩
  comma := by simp [h.comma]
  closing := List.isChain_cons.mpr ⟨fun _ _ _ => by decide, h.closing⟩
  last := by
    cases piece with
    | nil => decide
    | cons c rest => exact h.last

theorem IsPart.concat_space (h : IsPart piece) : IsPart (piece ++ [' ']) where
  lower := List.forall_mem_append.mpr
    ⟨h.lower, List.forall_mem_singleton.mpr (by decide +kernel)⟩
  comma := by simp [h.comma]
  closing := by
    refine List.isChain_append.mpr ⟨h.closing, .singleton _, ?_⟩
    rintro last hlast next - - rfl
    exact h.last hlast
  last := by simp

theorem Writes.isPart (h : Writes piece item) : IsPart piece := by
  induction h with
  | number hnumber hlower =>
      exact isPart_number (isNumeral_of_isNumber (Text.toLower_eq_self_iff.mp hlower) hnumber)
  | string hlower hcomma hclosing => exact isPart_string hlower hcomma hclosing
  | before h ih => exact ih.space_cons
  | after h ih => exact ih.concat_space

-- Without the spaces around it, a written item is the text of the constant.
theorem Writes.isItem (h : Writes piece item) :
    item.IsItem ∧ Text.collapse (Text.trim piece) = item.chars := by
  induction h with
  | @number text hnumber hlower =>
      have hnumeral := isNumeral_of_isNumber (Text.toLower_eq_self_iff.mp hlower) hnumber
      rw [Constant.IsItem, Constant.chars, String.toList_ofList,
        Numeral.trim_eq_self hnumeral.isNumeralChar]
      exact ⟨hnumeral, Text.collapse_of_notMem (hnumeral.notMem (by decide))⟩
  | @string text hlower hcomma hclosing =>
      have hglued := Text.isGlued_iff.mp ((Text.isGlued_collapse (by decide) text).mpr hclosing)
      rw [Constant.IsItem, Constant.chars, String.toList_ofList, trim_quoted,
        Text.collapse_cons_of_ne (by decide), Text.collapse_concat (by decide)]
      exact ⟨⟨⟨Text.toLower_collapse hlower, hglued.1⟩,
        fun hmem => hcomma (Text.mem_of_mem_collapse hmem), hglued.2⟩, rfl⟩
  | before h ih => rwa [Text.trim_space_cons]
  | after h ih => rwa [Text.trim_concat_space]

theorem Writes.holds (h : Writes piece item) : Holds (Text.collapse piece) item where
  comma := fun hmem => h.isPart.comma (Text.mem_of_mem_collapse hmem)
  isItem := h.isItem.1
  trim_eq := (Text.trim_collapse piece).trans h.isItem.2

section Body

variable {pieces : List (List Char)} {items : List Constant}

theorem isLower_intercalate (h : ∀ piece ∈ pieces, IsPart piece) :
    ∀ c ∈ [','].intercalate pieces, Text.IsLower c := by
  induction pieces with
  | nil => simp
  | cons piece pieces ih =>
      obtain ⟨hpiece, hmore⟩ := List.forall_mem_cons.mp h
      cases pieces with
      | nil => simpa using hpiece.lower
      | cons next pieces =>
          rw [List.intercalate_cons_cons, List.append_assoc]
          exact List.forall_mem_append.mpr ⟨hpiece.lower,
            List.forall_mem_append.mpr ⟨List.forall_mem_singleton.mpr (by decide +kernel), ih hmore⟩⟩

-- Neither the commas nor what stands between them closes the array.
theorem closing_intercalate (h : ∀ piece ∈ pieces, IsPart piece) :
    ([','].intercalate pieces).IsChain fun c next => next = ' ' → c ≠ ']' := by
  induction pieces with
  | nil => exact .nil
  | cons piece pieces ih =>
      obtain ⟨hpiece, hmore⟩ := List.forall_mem_cons.mp h
      cases pieces with
      | nil => simpa using hpiece.closing
      | cons next pieces =>
          rw [List.intercalate_cons_cons, List.append_assoc]
          refine List.isChain_append.mpr ⟨hpiece.closing,
            List.isChain_cons.mpr ⟨fun _ _ _ => by decide, ih hmore⟩, ?_⟩
          rintro last - first hfirst rfl
          cases hfirst

theorem readArray_of_writes (h : List.Forall₂ Writes pieces items) :
    readArray (Text.collapse ([','].intercalate pieces)) = .ok (.array items) := by
  rw [Text.collapse_intercalate (by decide)]
  exact readArray_intercalate
    (List.forall₂_map_left_iff.mpr (h.imp fun _ _ hwrites => hwrites.holds))

end Body

section Fault

-- What can be read as an item of an array: a number, or a text between quotes.
def IsItemText (piece : List Char) : Prop :=
  Lexeme.isNumber piece ∨ ∃ text, piece = '\'' :: (text ++ ['\''])

theorem exists_readItem (h : IsItemText piece) : ∃ item, readItem piece = .ok item := by
  unfold readItem
  split
  · exact ⟨_, rfl⟩
  · rename_i hunquote
    rcases h with hnumber | ⟨text, htext⟩
    · rw [if_pos hnumber]
      exact ⟨_, rfl⟩
    · rw [unquote?_eq_some_iff.mpr htext] at hunquote
      cases hunquote

theorem readItem_of_not_isItemText (h : ¬IsItemText piece) :
    readItem piece = .error (.invalidToken (String.ofList piece)) := by
  obtain ⟨hnumber, htext⟩ := not_or.mp h
  unfold readItem
  split
  · rename_i text hunquote
    exact absurd ⟨text, unquote?_eq_some_iff.mp hunquote⟩ htext
  · exact if_neg hnumber

theorem exists_first_not {α : Type} {p : α → Prop} {list : List α} (h : ∃ x ∈ list, ¬p x) :
    ∃ done x later, list = done ++ x :: later ∧ (∀ y ∈ done, p y) ∧ ¬p x := by
  classical
  have hsome : (list.find? fun x => ¬p x).isSome := List.find?_isSome.mpr (by simpa using h)
  obtain ⟨x, hfirst⟩ := Option.isSome_iff_exists.mp hsome
  obtain ⟨hx, done, later, hsplit, hdone⟩ := List.find?_eq_some_iff_append.mp hfirst
  exact ⟨done, x, later, hsplit, by simpa using hdone, by simpa using hx⟩

-- The first part between commas that is no item is what is wrong with the text of an array.
theorem readArray_of_not_isItemText {body : List Char} (hblank : Text.trim body ≠ [])
    (h : ∃ piece ∈ (body.splitOn ',').map Text.trim, ¬IsItemText piece) :
    ∃ done piece later, (body.splitOn ',').map Text.trim = done ++ piece :: later ∧
      (∀ other ∈ done, IsItemText other) ∧ ¬IsItemText piece ∧
      readArray body = .error (.invalidToken (String.ofList piece)) := by
  obtain ⟨done, piece, later, hsplit, hdone, hpiece⟩ := exists_first_not h
  refine ⟨done, piece, later, hsplit, hdone, hpiece, ?_⟩
  have hread : (done ++ piece :: later).mapM readItem =
      .error (.invalidToken (String.ofList piece)) :=
    Except.mapM_of_first_error (fun other hother => exists_readItem (hdone other hother))
      (readItem_of_not_isItemText hpiece)
  rw [← hsplit, List.mapM_map] at hread
  rw [readArray, if_neg hblank]
  exact Except.map_eq_error_iff.mpr hread

end Fault

end Operand

namespace Formula

open Operand

-- What the text between two brackets is read as is what the whole source denotes.
theorem parse_bracketed {body : List Char} {array : Constant} (hlower : ∀ c ∈ body, Text.IsLower c)
    (hclosing : ¬[']', ' '] <:+: body) (hread : readArray (Text.collapse body) = .ok array) :
    parse (String.ofList ('[' :: (body ++ [']']))) = .ok (some (.constant array)) := by
  have hglued := (Text.isGlued_collapse (by decide) body).mpr hclosing
  obtain ⟨first, more, hdivides⟩ := exists_divides (by decide) hglued
  have hsplit := Text.splitOn_append_of_notMem ['['] (by decide) hdivides.split
  have hlexemes : Token.lexemes ('[' :: (Text.collapse body ++ [']'])) = ('[' :: first) :: more :=
    Token.lexemes_of_splitOn hsplit (List.forall_mem_cons.mpr ⟨by simp, hdivides.ne_nil⟩)
  have hsame : Text.toLower ('[' :: (Text.collapse body ++ [']'])) =
      '[' :: (Text.collapse body ++ [']']) :=
    Text.toLower_eq_self_iff.mpr (Constant.isLower_enclosed (by decide +kernel)
      (fun c hc => hlower c (Text.mem_of_mem_collapse hc)) (by decide +kernel))
  have hsource : String.ofList ('[' :: (Text.collapse body ++ [']'])) ≠ "" := by simp
  have hscan := Token.scan_of_ne_empty hsource
  rw [String.toList_ofList, hsame, hlexemes, List.map_cons] at hscan
  have hspells : Spells (more.map Token.ofLexeme) ('[' :: first) (.constant array) more.length := by
    have htake := hdivides.take []
    rw [List.append_nil] at htake
    exact .array htake hread
  have hopens := opens_of_spells hspells 0
  rw [List.drop_eq_nil_of_le (by simp)] at hopens
  rw [parse_enclosed (by decide) (by decide), (Chain.last hopens).parse_eq hscan, bracket_nil,
    limited_of_le (by simp [depth, Nat.repeat, maxDepth])]
  rfl

-- Between brackets, written items denote the array of just these items in their order, and spaces
-- the empty array. Of a text that is not blank and has something else between its commas, the first
-- such part is reported.
theorem parse_written_items :
    (∀ pieces items, List.Forall₂ Writes pieces items →
        parse (String.ofList ('[' :: ([','].intercalate pieces ++ [']']))) =
          .ok (some (.constant (.array items)))) ∧
      (∀ spaces, parse (String.ofList ('[' :: (List.replicate spaces ' ' ++ [']']))) =
        .ok (some (.constant (.array [])))) ∧
      ∀ body, Text.trim body ≠ [] →
        (∃ piece ∈ (body.splitOn ',').map Text.trim, ¬IsItemText piece) →
          ∃ done piece later, (body.splitOn ',').map Text.trim = done ++ piece :: later ∧
            (∀ other ∈ done, IsItemText other) ∧ ¬IsItemText piece ∧
            readArray body = .error (.invalidToken (String.ofList piece)) := by
  refine ⟨fun pieces items h => ?_, fun spaces => ?_, fun body => readArray_of_not_isItemText⟩
  · have hparts : ∀ piece ∈ pieces, IsPart piece :=
      ((List.forall₂_and_left _ _).mp (h.imp fun _ _ hwrites => ⟨hwrites.isPart, hwrites⟩)).1
    exact parse_bracketed (isLower_intercalate hparts)
      (Text.not_pair_infix_iff.mpr (closing_intercalate hparts)) (readArray_of_writes h)
  · have hspace : ∀ c ∈ List.replicate spaces ' ', c = ' ' := fun _ => List.eq_of_mem_replicate
    have hblank : Text.trim (Text.collapse (List.replicate spaces ' ')) = [] := by
      rw [Text.trim_collapse, Text.trim_spaces]
      rfl
    refine parse_bracketed (fun c hc => ?_) (fun hpair => ?_) ?_
    · rw [hspace c hc]
      decide +kernel
    · cases hspace ']' (hpair.mem (by simp))
    · rw [readArray, if_pos hblank]

-- Brackets, quotes and spaces within texts, spaces around items and an empty text; then two items
-- that cannot be read, of which the first is a quote by itself.
theorem parse_written_items_spaced :
    parse "[ '[a]b  c ' ,-1.5e3  ,'it''s','']" =
        .ok (some (.constant (.array [.string "[a]b c ", .number "-1.5e3", .string "it''s",
          .string ""]))) ∧
      parse "[   ]" = .ok (some (.constant (.array []))) ∧
      readArray "1, ' , x".toList = .error (.invalidToken "'") := by
  have hfirst : Writes " '[a]b  c ' ".toList (.string "[a]b c ") := by
    have htext : Text.toLower "[a]b  c ".toList = "[a]b  c ".toList := by decide +kernel
    exact .before (.after (.string htext (by decide) (by decide)))
  have hnumber : Writes "-1.5e3  ".toList (.number "-1.5e3") := by
    have hlexeme : Lexeme.isNumber "-1.5e3".toList := by decide +kernel
    exact .after (.after (.number hlexeme (by decide +kernel)))
  have hquote : Writes "'it''s'".toList (.string "it''s") := by
    have htext : Text.toLower "it''s".toList = "it''s".toList := by decide +kernel
    exact .string htext (by decide) (by decide)
  have hempty : Writes "''".toList (.string "") := by
    have htext : Text.toLower [] = [] := rfl
    exact .string htext (by decide) (by decide)
  have hlist := parse_written_items.1 _ _
    (.cons hfirst (.cons hnumber (.cons hquote (.cons hempty .nil))))
  have hsource : String.ofList ('[' :: ([','].intercalate [" '[a]b  c ' ".toList,
      "-1.5e3  ".toList, "'it''s'".toList, "''".toList] ++ [']'])) =
      "[ '[a]b  c ' ,-1.5e3  ,'it''s','']" := by decide
  rw [hsource] at hlist
  refine ⟨hlist, parse_written_items.2.1 3, ?_⟩
  have hone : IsItemText ['1'] := .inl (by decide +kernel)
  have hlone : ¬IsItemText ['\''] := by
    rintro (hnumber | ⟨text, htext⟩)
    · exact absurd hnumber (by decide +kernel)
    · simp at htext
  have hpieces : ("1, ' , x".toList.splitOn ',').map Text.trim = [['1'], ['\''], ['x']] := by decide
  obtain ⟨done, piece, later, hsplit, hdone, hpiece, hread⟩ := parse_written_items.2.2
    "1, ' , x".toList (by decide) ⟨['\''], by rw [hpieces]; decide, hlone⟩
  rw [hpieces] at hsplit
  rcases done with _ | ⟨first, _ | ⟨second, done⟩⟩
  · obtain ⟨rfl, -⟩ := List.cons.inj hsplit
    exact absurd hone hpiece
  · obtain ⟨-, hsecond⟩ := List.cons.inj hsplit
    obtain ⟨rfl, -⟩ := List.cons.inj hsecond
    exact hread
  · obtain ⟨-, hsecond⟩ := List.cons.inj hsplit
    obtain ⟨rfl, -⟩ := List.cons.inj hsecond
    exact absurd (hdone ['\''] (by simp)) hlone

end Formula

end Verdict

import Verdict.Proofs.Formula.Flat
import Verdict.Proofs.Source.Literal

namespace Verdict

theorem Text.IsGlued.append {terminator : Char} {text more : List Char}
    (htext : IsGlued terminator text) (hmore : IsGlued terminator more) (hhead : ' ' ∉ more.head?) :
    IsGlued terminator (text ++ more) := by
  refine List.isChain_append.mpr ⟨htext, hmore, fun c _ next hnext hspace => ?_⟩
  rw [hspace] at hnext
  exact absurd hnext hhead

namespace Operand

open Formula

variable {terminator : Char} {text : List Char}

-- The pieces that a text with its terminator falls into, and that make up the same text again. Only
-- where a text starts with a space is nothing in its first piece.
structure Divides (terminator : Char) (text first : List Char) (more : List (List Char)) : Prop where
  split : (text ++ [terminator]).splitOn ' ' = first :: more
  start : first = [] → ' ' ∈ text.head?
  ne_nil : ∀ piece ∈ more, piece ≠ []
  take : ∀ following, takeUntil? terminator first (more.map Token.ofLexeme ++ following) =
    some (text, more.length)

theorem exists_divides (hterminator : terminator ≠ ' ') (h : Text.IsGlued terminator text) :
    ∃ first more, Divides terminator text first more := by
  revert h
  refine Text.splitOn_induction ' ' (motive := fun text _ => Text.IsGlued terminator text →
    ∃ first more, Divides terminator text first more) ?_ ?_ text
  · intro piece hpiece _
    refine ⟨piece ++ [terminator], [], List.splitOn_eq_singleton ?_, by simp, by simp, ?_⟩
    · simp [hpiece, hterminator.symm]
    · intro following
      rw [takeUntil?_of_end (by simp), List.dropLast_concat]
      rfl
  · intro piece rest hpiece ih hglued
    obtain ⟨-, hrest, hbetween⟩ := List.isChain_append.mp hglued
    obtain ⟨first, more, h⟩ := ih hrest.tail
    have hstart : ' ' ∉ rest.head? := fun hhead =>
      ((List.isChain_cons.mp hrest).1 ' ' hhead rfl).1 rfl
    have hend : piece.getLast? ≠ some terminator := fun hlast =>
      (hbetween terminator hlast ' ' rfl rfl).2 rfl
    refine ⟨piece, first :: more, ?_, ?_, ?_, ?_⟩
    · rw [List.append_assoc, List.cons_append, List.splitOn_append_cons_self_of_not_mem hpiece,
        h.split]
    · rintro rfl
      rfl
    · exact List.forall_mem_cons.mpr ⟨fun hnil => hstart (h.start hnil), h.ne_nil⟩
    · intro following
      rw [List.map_cons, List.cons_append, takeUntil?_of_continue hend, Token.text_ofLexeme,
        String.toList_ofList, h.take]
      rfl

section Items

variable {item : Constant} {items : List Constant}

theorem isGlued_item (h : item.IsItem) :
    Text.IsGlued ']' item.chars ∧ ' ' ∉ item.chars.head? := by
  cases item with
  | number text =>
      have hspace : ' ' ∉ text.toList := Constant.IsNumeral.notMem h (by decide)
      exact ⟨Text.isGlued_of_notMem _ hspace, fun hhead => hspace (List.mem_of_mem_head? hhead)⟩
  | string text =>
      have htext : Text.IsGlued ']' text.toList := Text.isGlued_iff.mpr ⟨h.1.spaces, h.2.2⟩
      have hquoted : Text.IsGlued ']' (text.toList ++ ['\'']) :=
        htext.append (.singleton _) (by decide)
      exact ⟨List.isChain_cons.mpr ⟨fun _ _ _ => by decide, hquoted⟩, by simp [Constant.chars]⟩
  | _ => exact h.elim

theorem isGlued_itemChars (h : ∀ item ∈ items, item.IsItem) :
    Text.IsGlued ']' (Constant.itemChars items) := by
  induction items with
  | nil => exact .nil
  | cons item items ih =>
      obtain ⟨hitem, hmore⟩ := List.forall_mem_cons.mp h
      cases items with
      | nil => exact (isGlued_item hitem).1
      | cons next items =>
          have hcomma : Text.IsGlued ']' (',' :: Constant.itemChars (next :: items)) :=
            List.isChain_cons.mpr ⟨fun _ _ _ => by decide, ih hmore⟩
          exact (isGlued_item hitem).1.append hcomma (by simp)

theorem comma_notMem_item (h : item.IsItem) : ',' ∉ item.chars := by
  cases item with
  | number text => exact Constant.IsNumeral.notMem h (by decide)
  | string text =>
      have htext : ',' ∉ text.toList := h.2.1
      simp [Constant.chars, htext]
  | _ => exact h.elim

theorem trim_quoted (text : List Char) :
    Text.trim ('\'' :: (text ++ ['\''])) = '\'' :: (text ++ ['\'']) := by
  refine Text.trim_eq_self (by simp; decide) ?_
  rw [← List.cons_append, List.getLast?_concat]
  simp
  decide

theorem trim_item (h : item.IsItem) : Text.trim item.chars = item.chars := by
  cases item with
  | number text => exact Numeral.trim_eq_self (Constant.IsNumeral.isNumeralChar h)
  | string text => exact trim_quoted text.toList
  | _ => exact h.elim

theorem exists_mem_item (h : item.IsItem) : ∃ c ∈ item.chars, Text.isBlank c = false := by
  cases item with
  | number text =>
      obtain ⟨c, rest, htext, -⟩ := h.start
      have hmem : c ∈ text.toList := by simp [htext]
      exact ⟨c, hmem, Numeral.isBlank_eq_false (Constant.IsNumeral.isNumeralChar h c hmem)⟩
  | string text => exact ⟨'\'', List.mem_cons_self, by decide⟩
  | _ => exact h.elim

theorem readItem_chars (h : item.IsItem) : readItem item.chars = .ok item := by
  cases item with
  | number text =>
      have hquote : '\'' ∉ text.toList := Constant.IsNumeral.notMem h (by decide)
      have hunquote : unquote? text.toList = none := by
        by_contra hsome
        obtain ⟨body, hbody⟩ := Option.ne_none_iff_exists'.mp hsome
        rw [unquote?_eq_some_iff.mp hbody] at hquote
        exact hquote List.mem_cons_self
      rw [Constant.chars, readItem, hunquote]
      simp [Constant.IsNumeral.isNumber h]
  | string text => simp [Constant.chars, readItem, unquote?_eq_some_iff.mpr rfl]
  | _ => exact h.elim

-- What may stand between the commas of an array: an item, perhaps with white space around it.
structure Holds (piece : List Char) (item : Constant) : Prop where
  comma : ',' ∉ piece
  isItem : item.IsItem
  trim_eq : Text.trim piece = item.chars

theorem Holds.readItem_eq {piece : List Char} (h : Holds piece item) :
    readItem (Text.trim piece) = .ok item := by
  rw [h.trim_eq, readItem_chars h.isItem]

theorem Holds.exists_mem {piece : List Char} (h : Holds piece item) :
    ∃ c ∈ piece, Text.isBlank c = false := by
  obtain ⟨c, hmem, hc⟩ := exists_mem_item h.isItem
  rw [← h.trim_eq] at hmem
  exact ⟨c, (Text.trim_isInfix piece).mem hmem, hc⟩

-- The commas divide the text of an array into what each of its items is read from.
theorem readArray_intercalate {pieces : List (List Char)} (h : List.Forall₂ Holds pieces items) :
    readArray ([','].intercalate pieces) = .ok (.array items) := by
  cases pieces with
  | nil =>
      rw [List.forall₂_nil_left_iff.mp h]
      rfl
  | cons piece pieces =>
      have hcommas : ∀ part ∈ piece :: pieces, ',' ∉ part :=
        ((List.forall₂_and_left _ _).mp (h.imp fun _ _ hholds => ⟨hholds.comma, hholds⟩)).1
      have hblank : Text.trim ([','].intercalate (piece :: pieces)) ≠ [] := by
        obtain ⟨item, more, hpiece, -, -⟩ := List.forall₂_cons_left_iff.mp h
        obtain ⟨c, hfirst, hc⟩ := hpiece.exists_mem
        have hbody : c ∈ [','].intercalate (piece :: pieces) := by
          cases pieces with
          | nil => simpa using hfirst
          | cons next pieces =>
              rw [List.intercalate_cons_cons, List.append_assoc]
              exact List.mem_append_left _ hfirst
        exact List.ne_nil_of_mem (Text.mem_trim hbody hc)
      have hsplit := List.splitOn_intercalate ',' hcommas (List.cons_ne_nil piece pieces)
      have hread := Except.mapM_eq_ok_iff.mpr (h.imp fun _ _ hholds => hholds.readItem_eq)
      rw [readArray, if_neg hblank, hsplit, hread]
      rfl

theorem holds_chars (h : item.IsItem) : Holds item.chars item :=
  ⟨comma_notMem_item h, h, trim_item h⟩

theorem readArray_itemChars (h : ∀ item ∈ items, item.IsItem) :
    readArray (Constant.itemChars items) = .ok (.array items) := by
  rw [Constant.itemChars_eq]
  exact readArray_intercalate (List.forall₂_map_left_iff.mpr (List.forall₂_same.mpr
    fun item hitem => holds_chars (h item hitem)))

end Items

-- A literal is read back from the pieces between its spaces, whatever follows it.
theorem exists_pieces_of_isLiteral {value : Constant} (h : value.IsLiteral) :
    ∃ first more, value.chars.splitOn ' ' = first :: more ∧ (∀ piece ∈ more, piece ≠ []) ∧
      ∀ following, Spells (more.map Token.ofLexeme ++ following) first (.constant value)
        more.length := by
  cases value with
  | bool value =>
      refine ⟨_, [], List.splitOn_eq_singleton ?_, by simp, fun following => ?_⟩
      · cases value <;> decide
      · cases value with
        | true => exact .boolean true
        | false => exact .boolean false
  | nil => exact h.elim
  | number text =>
      refine ⟨text.toList, [], List.splitOn_eq_singleton ?_, by simp, fun following => ?_⟩
      · exact Constant.IsNumeral.notMem h (by decide)
      · have hspells := @Spells.number following _ (Constant.IsNumeral.isNumber h)
        rwa [String.ofList_toList] at hspells
  | string text =>
      have hglued : Text.IsGlued '\'' text.toList := Text.isGlued_iff.mpr ⟨h.1.spaces, h.2⟩
      obtain ⟨first, more, hdivides⟩ := exists_divides (by decide) hglued
      refine ⟨'\'' :: first, more, ?_, hdivides.ne_nil, fun following => ?_⟩
      · exact Text.splitOn_append_of_notMem ['\''] (by decide) hdivides.split
      · have hspells := Spells.string (hdivides.take following)
        rwa [String.ofList_toList] at hspells
  | array items =>
      obtain ⟨first, more, hdivides⟩ := exists_divides (by decide) (isGlued_itemChars h)
      refine ⟨'[' :: first, more, ?_, hdivides.ne_nil, fun following => ?_⟩
      · exact Text.splitOn_append_of_notMem ['['] (by decide) hdivides.split
      · exact .array (hdivides.take following) (readArray_itemChars h)

theorem isVariableName_of_isName (h : IsName text) : Lexeme.isVariableName text := by
  simp only [Lexeme.isVariableName, Bool.and_eq_true, decide_eq_true_eq, List.all_eq_true,
    Bool.or_eq_true]
  refine ⟨h.1, fun c hc => ?_⟩
  rcases h.2 c hc with hletter | hdigit | hunder
  · exact .inl (by simp [Text.isAlphanum_eq, hletter])
  · exact .inl (by simp [Text.isAlphanum_eq, hdigit])
  · exact .inr hunder

theorem space_notMem_of_isName (h : IsName text) : ' ' ∉ text := by
  intro hmem
  exact absurd (h.2 ' ' hmem) (by decide)

-- The marks of its negations stand in front of the first piece of an operand.
theorem exists_pieces_of_wellFormed {formula : Formula} (hoperand : formula.isOperand)
    (h : formula.WellFormed) :
    ∃ marks first more bare, formula = Nat.repeat Formula.not marks bare ∧
      formula.flatChars.splitOn ' ' = (List.replicate marks '!' ++ first) :: more ∧
      (∀ piece ∈ more, piece ≠ []) ∧
      ∀ following, Spells (more.map Token.ofLexeme ++ following) first bare more.length := by
  induction formula with
  | constant value =>
      obtain ⟨first, more, hpieces⟩ := exists_pieces_of_isLiteral h
      exact ⟨0, first, more, _, rfl, hpieces⟩
  | «variable» name =>
      obtain ⟨hname, htrue, hfalse, hnumber⟩ := h
      have hspace := List.splitOn_eq_singleton (space_notMem_of_isName hname)
      refine ⟨0, name.toList, [], _, rfl, hspace, by simp, fun following => ?_⟩
      have hspells := @Spells.name following _ (isVariableName_of_isName hname) hnumber
        (fun heq => htrue (String.toList_inj.mp heq)) (fun heq => hfalse (String.toList_inj.mp heq))
      rwa [String.ofList_toList] at hspells
  | not operand ih =>
      have hinner : operand.isOperand := by
        cases operand with
        | binary op left right => simp [WellFormed, operators] at h
        | _ => rfl
      obtain ⟨marks, first, more, bare, rfl, hsplit, hmore, hspells⟩ := ih hinner h.2
      refine ⟨marks + 1, first, more, bare, rfl, ?_, hmore, hspells⟩
      exact Text.splitOn_append_of_notMem ['!'] (by decide) hsplit
  | count operand ih =>
      obtain ⟨name, rfl, hname⟩ := h
      have hspace : ' ' ∉ name.toList ++ ".count".toList := by
        simp [space_notMem_of_isName hname]
      refine ⟨0, _, [], _, rfl, List.splitOn_eq_singleton hspace, by simp, fun following => ?_⟩
      have hspells := @Spells.count following _ (isVariableName_of_isName hname)
      rwa [String.ofList_toList] at hspells
  | binary op left right => simp [isOperand] at hoperand

end Operand

end Verdict

import Mathlib.Data.List.DropRight
import Verdict.Proofs.Text.Split

namespace Verdict.Text

-- One space in the place of each run of spaces.
def collapse : List Char → List Char
  | [] => []
  | c :: rest => if c = ' ' ∧ rest.head? = some ' ' then collapse rest else c :: collapse rest

def dropSpaces (text : List Char) : List Char := text.dropWhile (· = ' ')

-- A text with each run of spaces collapsed and none left at either end.
def squeeze (text : List Char) : List Char := (dropSpaces (collapse text)).rdropWhile (· = ' ')

variable {piece : List Char}

theorem dropSpaces_cons (text : List Char) : dropSpaces (' ' :: text) = dropSpaces text :=
  List.dropWhile_cons_of_pos rfl

theorem dropSpaces_of_notMem (hpiece : ' ' ∉ piece) (hne : piece ≠ []) (more : List Char) :
    dropSpaces (piece ++ more) = piece ++ more := by
  cases piece with
  | nil => exact absurd rfl hne
  | cons c rest =>
      have hc : c ≠ ' ' := fun hspace => hpiece (by simp [hspace])
      exact List.dropWhile_cons_of_neg (by simpa using hc)

theorem collapse_cons_of_ne {c : Char} (hc : c ≠ ' ') (rest : List Char) :
    collapse (c :: rest) = c :: collapse rest := by
  rw [collapse, if_neg fun h => hc h.1]

theorem collapse_of_notMem (hpiece : ' ' ∉ piece) : collapse piece = piece := by
  induction piece with
  | nil => rfl
  | cons c rest ih =>
      rw [collapse_cons_of_ne (Ne.symm (List.ne_of_not_mem_cons hpiece)),
        ih (List.not_mem_of_not_mem_cons hpiece)]

-- Of a run of spaces the first stays.
theorem collapse_space (rest : List Char) :
    collapse (' ' :: rest) = ' ' :: dropSpaces (collapse rest) := by
  induction rest with
  | nil => rfl
  | cons c rest ih =>
      by_cases hc : c = ' '
      · subst hc
        rw [collapse, if_pos ⟨rfl, rfl⟩, ih, dropSpaces_cons, dropSpaces, dropSpaces,
          List.dropWhile_idempotent]
      · rw [collapse, if_neg (by simpa using hc), collapse_cons_of_ne hc, dropSpaces,
          List.dropWhile_cons_of_neg (by simpa using hc)]

theorem collapse_append (hpiece : ' ' ∉ piece) (rest : List Char) :
    collapse (piece ++ ' ' :: rest) = piece ++ ' ' :: dropSpaces (collapse rest) := by
  induction piece with
  | nil => exact collapse_space rest
  | cons c piece ih =>
      rw [List.cons_append, collapse_cons_of_ne (Ne.symm (List.ne_of_not_mem_cons hpiece)),
        ih (List.not_mem_of_not_mem_cons hpiece)]
      rfl

theorem rdropWhile_append {p : Char → Bool} (front back : List Char) :
    (front ++ back).rdropWhile p =
      if back.rdropWhile p = [] then front.rdropWhile p else front ++ back.rdropWhile p := by
  simp only [List.rdropWhile, List.reverse_append, List.dropWhile_append, List.reverse_eq_nil_iff,
    List.isEmpty_iff]
  split <;> simp

theorem rdropWhile_of_notMem (hpiece : ' ' ∉ piece) : piece.rdropWhile (· = ' ') = piece := by
  refine List.rdropWhile_eq_self_iff.mpr fun hne => ?_
  have hlast : piece.getLast hne ≠ ' ' := fun h => hpiece (h ▸ List.getLast_mem hne)
  simpa using hlast

theorem squeeze_of_notMem (hpiece : ' ' ∉ piece) : squeeze piece = piece := by
  rw [squeeze, collapse_of_notMem hpiece]
  by_cases hne : piece = []
  · rw [hne]
    rfl
  · have hdrop := dropSpaces_of_notMem hpiece hne []
    rw [List.append_nil] at hdrop
    rw [hdrop, rdropWhile_of_notMem hpiece]

theorem squeeze_space (rest : List Char) : squeeze (' ' :: rest) = squeeze rest := by
  rw [squeeze, collapse_space, dropSpaces_cons, dropSpaces, dropSpaces, List.dropWhile_idempotent]
  rfl

-- Of the spaces behind a piece one is left, or none if nothing else follows.
theorem squeeze_append (hpiece : ' ' ∉ piece) (hne : piece ≠ []) (rest : List Char) :
    squeeze (piece ++ ' ' :: rest) =
      if squeeze rest = [] then piece else piece ++ ' ' :: squeeze rest := by
  have hfront : (piece ++ [' ']).rdropWhile (· = ' ') = piece := by
    rw [List.rdropWhile_concat_pos _ _ _ (by simp), rdropWhile_of_notMem hpiece]
  rw [squeeze, collapse_append hpiece, dropSpaces_of_notMem hpiece hne, List.append_cons,
    rdropWhile_append, hfront, ← squeeze]
  split
  · rfl
  · rw [← List.append_cons]

theorem intercalate_cons_eq (separator : Char) (piece : List Char)
    {pieces : List (List Char)} (hpieces : ∀ piece ∈ pieces, piece ≠ []) :
    [separator].intercalate (piece :: pieces) =
      if [separator].intercalate pieces = [] then piece
      else piece ++ separator :: [separator].intercalate pieces := by
  cases pieces with
  | nil => simp
  | cons next more =>
      have hnext : next ≠ [] := hpieces next List.mem_cons_self
      rw [if_neg, List.intercalate_cons_cons, List.append_assoc]
      · rfl
      · cases more <;> simp [List.intercalate_cons_cons, hnext]

-- A squeezed text is made of the pieces between its spaces, with one space between each two.
theorem squeeze_eq_intercalate (text : List Char) :
    squeeze text = [' '].intercalate ((text.splitOn ' ').filter (· ≠ [])) := by
  refine splitOn_induction ' '
    (motive := fun text pieces => squeeze text = [' '].intercalate (pieces.filter (· ≠ [])))
    ?_ ?_ text
  · intro piece hpiece
    rw [squeeze_of_notMem hpiece]
    by_cases hne : piece = [] <;> simp [hne]
  · intro piece rest hpiece ih
    by_cases hne : piece = []
    · subst hne
      rw [List.nil_append, squeeze_space, ih]
      rfl
    · have hpieces : ∀ piece ∈ (rest.splitOn ' ').filter (· ≠ []), piece ≠ [] := by
        intro piece hmem
        simpa using (List.mem_filter.mp hmem).2
      rw [squeeze_append hpiece hne, ih, List.filter_cons_of_pos (by simpa using hne),
        intercalate_cons_eq ' ' piece hpieces]

end Verdict.Text

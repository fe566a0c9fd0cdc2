import Verdict.Proofs.Text.Spaces

namespace Verdict.Text

theorem collapse_cons (c : Char) (rest : List Char) :
    collapse (c :: rest) =
      if c = ' ' ∧ rest.head? = some ' ' then collapse rest else c :: collapse rest := rfl

theorem head?_collapse (text : List Char) : (collapse text).head? = text.head? := by
  induction text with
  | nil => rfl
  | cons c rest ih =>
      rw [collapse_cons]
      split
      · rename_i hspaces
        rw [ih, hspaces.1, hspaces.2]
        rfl
      · rfl

theorem mem_of_mem_collapse {c : Char} {text : List Char} (hmem : c ∈ collapse text) :
    c ∈ text := by
  induction text with
  | nil => exact hmem
  | cons first rest ih =>
      rw [collapse_cons] at hmem
      split at hmem
      · exact List.mem_cons_of_mem _ (ih hmem)
      · rcases List.mem_cons.mp hmem with rfl | hrest
        · exact List.mem_cons_self
        · exact List.mem_cons_of_mem _ (ih hrest)

theorem collapse_singleton (c : Char) : collapse [c] = [c] := by
  rw [collapse_cons, if_neg (by simp)]
  rfl

-- What stands around a character other than the space is collapsed on its own.
theorem collapse_append_cons {c : Char} (hc : c ≠ ' ') (text more : List Char) :
    collapse (text ++ c :: more) = collapse text ++ c :: collapse more := by
  induction text with
  | nil => exact collapse_cons_of_ne hc more
  | cons first rest ih =>
      have hhead : (rest ++ c :: more).head? = some ' ' ↔ rest.head? = some ' ' := by
        cases rest with
        | nil => simp [hc]
        | cons next rest => rfl
      rw [List.cons_append, collapse_cons, collapse_cons, ih]
      simp only [hhead]
      split <;> rfl

theorem collapse_concat {c : Char} (hc : c ≠ ' ') (text : List Char) :
    collapse (text ++ [c]) = collapse text ++ [c] :=
  collapse_append_cons hc text []

-- A character at the end is kept, or it is a space too many.
theorem collapse_concat_cases (text : List Char) (c : Char) :
    collapse (text ++ [c]) = collapse text ∨ collapse (text ++ [c]) = collapse text ++ [c] := by
  induction text with
  | nil => exact .inr (collapse_singleton c)
  | cons first rest ih =>
      cases rest with
      | nil =>
          rw [List.cons_append, List.nil_append, collapse_cons, collapse_singleton,
            collapse_singleton]
          split
          · rename_i hspaces
            rw [hspaces.1, Option.some.inj hspaces.2]
            exact .inl rfl
          · exact .inr rfl
      | cons next rest =>
          have hhead : (next :: rest ++ [c]).head? = (next :: rest).head? := rfl
          rw [List.cons_append, collapse_cons, collapse_cons first]
          simp only [hhead]
          split
          · exact ih
          · exact ih.imp (congrArg (first :: ·)) (congrArg (first :: ·))

section Trim

theorem trimStart_collapse (text : List Char) :
    trimStart (collapse text) = collapse (trimStart text) := by
  induction text with
  | nil => rfl
  | cons c rest ih =>
      by_cases hc : isBlank c
      · have hrest : trimStart (c :: rest) = trimStart rest := List.dropWhile_cons_of_pos hc
        rw [hrest, ← ih, collapse_cons]
        split
        · rfl
        · exact List.dropWhile_cons_of_pos hc
      · have hne : c ≠ ' ' := by
          rintro rfl
          exact hc (by decide)
        have hall : trimStart (c :: rest) = c :: rest := List.dropWhile_cons_of_neg hc
        rw [hall, collapse_cons_of_ne hne]
        exact List.dropWhile_cons_of_neg hc

theorem trimEnd_concat_of_isBlank {c : Char} (hc : isBlank c) (text : List Char) :
    trimEnd (text ++ [c]) = trimEnd text := by
  rw [trimEnd, List.reverse_concat, List.dropWhile_cons_of_pos hc]
  rfl

theorem trimEnd_concat_of_not_isBlank {c : Char} (hc : ¬isBlank c) (text : List Char) :
    trimEnd (text ++ [c]) = text ++ [c] := by
  rw [trimEnd, List.reverse_concat, List.dropWhile_cons_of_neg hc, ← List.reverse_concat,
    List.reverse_reverse]

theorem trimEnd_collapse (text : List Char) :
    trimEnd (collapse text) = collapse (trimEnd text) := by
  induction text using List.reverseRecOn with
  | nil => rfl
  | append_singleton text c ih =>
      by_cases hc : isBlank c
      · rw [trimEnd_concat_of_isBlank hc, ← ih]
        rcases collapse_concat_cases text c with hsame | hmore
        · rw [hsame]
        · rw [hmore, trimEnd_concat_of_isBlank hc]
      · have hne : c ≠ ' ' := by
          rintro rfl
          exact hc (by decide)
        rw [trimEnd_concat_of_not_isBlank hc, collapse_concat hne,
          trimEnd_concat_of_not_isBlank hc]

-- Trimming and collapsing can be done in either order.
theorem trim_collapse (text : List Char) : trim (collapse text) = collapse (trim text) := by
  rw [trim, trimStart_collapse, trimEnd_collapse, trim]

end Trim

-- Texts around separators other than the space are collapsed one by one.
theorem collapse_intercalate {separator : Char} (hseparator : separator ≠ ' ')
    (pieces : List (List Char)) :
    collapse ([separator].intercalate pieces) =
      [separator].intercalate (pieces.map collapse) := by
  induction pieces with
  | nil => rfl
  | cons piece pieces ih =>
      cases pieces with
      | nil => simp
      | cons next pieces =>
          rw [List.map_cons, List.map_cons, List.intercalate_cons_cons, List.intercalate_cons_cons,
            List.append_assoc, List.append_assoc, ← List.map_cons, ← ih]
          exact collapse_append_cons hseparator piece _

-- Between two characters that are no spaces, squeezing is collapsing.
theorem squeeze_enclosed {opening closing : Char} (hopening : opening ≠ ' ')
    (hclosing : closing ≠ ' ') (text : List Char) :
    squeeze (opening :: (text ++ [closing])) = opening :: (collapse text ++ [closing]) := by
  have hdrop : dropSpaces (opening :: (collapse text ++ [closing])) =
      opening :: (collapse text ++ [closing]) :=
    List.dropWhile_cons_of_neg (by simpa using hopening)
  rw [squeeze, collapse_cons_of_ne hopening, collapse_concat hclosing, hdrop, ← List.cons_append]
  exact List.rdropWhile_concat_neg _ _ _ (by simpa using hclosing)

end Verdict.Text

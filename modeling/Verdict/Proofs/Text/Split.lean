import Mathlib.Data.List.Chain
import Mathlib.Data.List.TakeWhile
import Verdict.Text.Blank

namespace Verdict.Text

-- A text is one piece, or a piece in front of a separator and more text.
theorem splitOn_induction {motive : List Char → List (List Char) → Prop} (separator : Char)
    (last : ∀ piece, separator ∉ piece → motive piece [piece])
    (cons : ∀ piece rest, separator ∉ piece → motive rest (rest.splitOn separator) →
      motive (piece ++ separator :: rest) (piece :: rest.splitOn separator))
    (text : List Char) : motive text (text.splitOn separator) := by
  induction hlength : text.length using Nat.strongRecOn generalizing text with
  | _ length ih =>
      by_cases hmem : separator ∈ text
      · obtain ⟨piece, rest, rfl, hpiece⟩ := List.eq_append_cons_of_mem hmem
        have hshorter : rest.length < length := by
          rw [← hlength, List.length_append, List.length_cons]
          omega
        rw [List.splitOn_append_cons_self_of_not_mem hpiece]
        exact cons piece rest hpiece (ih rest.length hshorter rest rfl)
      · rw [List.splitOn_eq_singleton hmem]
        exact last text hmem

-- Characters in front of a text only make its first piece longer.
theorem splitOn_append_of_notMem {separator : Char} (front : List Char) {text first : List Char}
    {more : List (List Char)} (hfront : separator ∉ front)
    (htext : text.splitOn separator = first :: more) :
    (front ++ text).splitOn separator = (front ++ first) :: more := by
  revert htext
  refine splitOn_induction separator
    (motive := fun text pieces => pieces = first :: more →
      (front ++ text).splitOn separator = (front ++ first) :: more) ?_ ?_ text
  · intro piece hpiece hpieces
    cases hpieces
    exact List.splitOn_eq_singleton (by simp [hfront, hpiece])
  · intro piece rest hpiece _ hpieces
    cases hpieces
    rw [← List.append_assoc]
    exact List.splitOn_append_cons_self_of_not_mem (by simp [hfront, hpiece]) _

theorem of_mem_splitOn {separator : Char} {text piece : List Char}
    (hpiece : piece ∈ text.splitOn separator) : separator ∉ piece ∧ piece <:+: text := by
  revert hpiece
  refine splitOn_induction separator
    (motive := fun text pieces => piece ∈ pieces → separator ∉ piece ∧ piece <:+: text) ?_ ?_ text
  · intro last hlast hpiece
    obtain rfl := List.mem_singleton.mp hpiece
    exact ⟨hlast, List.infix_refl _⟩
  · intro first rest hfirst ih hpiece
    rcases List.mem_cons.mp hpiece with rfl | hrest
    · exact ⟨hfirst, (List.prefix_append _ _).isInfix⟩
    · obtain ⟨hnot, hwithin⟩ := ih hrest
      exact ⟨hnot, hwithin.trans (List.suffix_append_of_suffix (List.suffix_cons _ _)).isInfix⟩

-- A relation holds between all neighbours if and only if it holds in each two characters in a row.
theorem isChain_iff_forall_pair {related : Char → Char → Prop} {text : List Char} :
    text.IsChain related ↔ ∀ c next, [c, next] <:+: text → related c next := by
  constructor
  · intro hchain c next hpair
    have hboth : [c, next].IsChain related := List.IsChain.infix hchain hpair
    exact List.isChain_pair.mp hboth
  · intro hpairs
    induction text with
    | nil => exact .nil
    | cons c rest ih =>
        refine List.isChain_cons.mpr ⟨fun next hnext => ?_, ih fun first second hpair => ?_⟩
        · obtain ⟨more, rfl⟩ := List.head?_eq_some_iff.mp hnext
          exact hpairs c next ⟨[], more, rfl⟩
        · exact hpairs first second (hpair.trans (List.suffix_cons _ _).isInfix)

theorem trim_isInfix (text : List Char) : trim text <:+: text := by
  have hstart : trimStart text <:+ text := List.dropWhile_suffix _
  have hend : trimEnd (trimStart text) <+: trimStart text := by
    rw [← List.reverse_suffix]
    simpa [trimEnd] using List.dropWhile_suffix _
  exact hend.isInfix.trans hstart.isInfix

-- A run and what follows it make up a text again.
theorem mem_takeWhile_or_dropWhile (p : Char → Bool) {text : List Char} {c : Char}
    (hmem : c ∈ text) : p c ∨ c ∈ text.dropWhile p := by
  rw [← List.takeWhile_append_dropWhile (p := p) (l := text)] at hmem
  rcases List.mem_append.mp hmem with htake | hdrop
  · exact .inl (List.mem_takeWhile_imp htake)
  · exact .inr hdrop

-- Characters that are not blank survive trimming.
theorem mem_trim {text : List Char} {c : Char} (hmem : c ∈ text) (hc : isBlank c = false) :
    c ∈ trim text := by
  have hdrop : ∀ {text : List Char}, c ∈ text → c ∈ text.dropWhile isBlank := by
    intro text hmem
    rcases mem_takeWhile_or_dropWhile isBlank hmem with hblank | hrest
    · rw [hc] at hblank
      cases hblank
    · exact hrest
  have hstart : c ∈ trimStart text := hdrop hmem
  exact List.mem_reverse.mpr (hdrop (List.mem_reverse.mpr hstart))

-- Trimming changes nothing between two characters that are not blank.
theorem trim_eq_self {text : List Char} (hfirst : ∀ c ∈ text.head?, isBlank c = false)
    (hlast : ∀ c ∈ text.getLast?, isBlank c = false) : trim text = text := by
  have hdrop : ∀ text : List Char, (∀ c ∈ text.head?, isBlank c = false) →
      text.dropWhile isBlank = text := by
    intro text hhead
    cases text with
    | nil => rfl
    | cons c rest => exact List.dropWhile_cons_of_neg (by simp [hhead c rfl])
  have hstart : trimStart text = text := hdrop text hfirst
  rw [trim, hstart, trimEnd, hdrop text.reverse (by simpa using hlast), List.reverse_reverse]

end Verdict.Text

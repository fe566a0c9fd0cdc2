import Verdict.Proofs.Text.LowerCase
import Verdict.Proofs.Text.Split

namespace Verdict.Text

theorem startsCased_cons (c : Char) (rest : List Char) :
    startsCased (c :: rest) = if isCaseIgnorable c then startsCased rest else isCased c := by
  by_cases hignorable : isCaseIgnorable c <;> simp [startsCased, hignorable]

theorem lowerAfter_cons (before : List Char) (c : Char) (rest : List Char) :
    lowerAfter before (c :: rest) =
      (if c = 'Σ' then if startsCased before && !startsCased rest then ['ς'] else ['σ']
        else lowerChar c) ++ lowerAfter (c :: before) rest := rfl

-- A text in lower case is left as it is.
theorem toLower_toLower (text : List Char) : toLower (toLower text) = toLower text :=
  toLower_eq_self_iff.mpr fun _ => isLower_of_mem_toLower

section Spaces

-- A character that is neither a letter nor passed over where one is looked for.
def IsDivider (c : Char) : Prop := isCaseIgnorable c = false ∧ isCased c = false

theorem isDivider_space : IsDivider ' ' := by
  constructor <;> decide +kernel

variable {divider : Char}

-- What stands behind a divider has no say in whether a cased letter comes first.
theorem startsCased_append (hdivider : IsDivider divider) (text more : List Char) :
    startsCased (text ++ divider :: more) = startsCased text := by
  induction text with
  | nil =>
      rw [List.nil_append, startsCased_cons, hdivider.1, hdivider.2]
      rfl
  | cons c rest ih => rw [List.cons_append, startsCased_cons, startsCased_cons, ih]

theorem lowerAfter_append (before piece rest : List Char) :
    lowerAfter before (piece ++ ' ' :: rest) =
      lowerAfter before piece ++ ' ' :: lowerAfter (' ' :: (piece.reverse ++ before)) rest := by
  induction piece generalizing before with
  | nil => rfl
  | cons c piece ih =>
      rw [List.cons_append, lowerAfter_cons, lowerAfter_cons, startsCased_append isDivider_space, ih,
        List.append_assoc, List.reverse_cons, List.append_assoc]
      rfl

theorem lowerAfter_divider (hdivider : IsDivider divider) (front before text : List Char) :
    lowerAfter (front ++ divider :: before) text = lowerAfter front text := by
  induction text generalizing front with
  | nil => rfl
  | cons c rest ih =>
      rw [lowerAfter_cons, lowerAfter_cons, startsCased_append hdivider, ← List.cons_append,
        ih (c :: front)]

-- A run of dividers in front of a text that are in lower case themselves changes nothing in it.
theorem toLower_replicate_append (hdivider : IsDivider divider)
    (hlower : lowerChar divider = [divider]) (hsigma : divider ≠ 'Σ') (count : Nat)
    (text : List Char) :
    toLower (List.replicate count divider ++ text) =
      List.replicate count divider ++ toLower text := by
  induction count with
  | zero => rfl
  | succ count ih =>
      rw [List.replicate_succ, List.cons_append, toLower, lowerAfter_cons, if_neg hsigma, hlower]
      exact congrArg (divider :: ·) ((lowerAfter_divider hdivider [] [] _).trans ih)

-- Lower-casing takes the parts between spaces one by one: a letter behind a space has no say in
-- whether a sigma is final.
theorem toLower_append (piece rest : List Char) :
    toLower (piece ++ ' ' :: rest) = toLower piece ++ ' ' :: toLower rest := by
  rw [toLower, lowerAfter_append]
  exact congrArg (fun more => toLower piece ++ ' ' :: more)
    (lowerAfter_divider isDivider_space [] _ rest)

theorem caseRuns_image_above_space : (caseRuns.all fun run => 0x20 < run.image) = true := by
  decide +kernel

theorem eq_space_of_mem_lowerChar {c : Char} (hmem : ' ' ∈ lowerChar c) : c = ' ' := by
  by_cases hascii : c.toNat < 0x80
  · exact forall_ascii (motive := fun c => ' ' ∈ lowerChar c → c = ' ') (by decide +kernel) hascii
      hmem
  rw [lowerChar, if_neg hascii] at hmem
  split at hmem
  · simp at hmem
  split at hmem
  · rename_i run hfind
    have hrun := List.mem_of_find?_eq_some hfind
    have hc : run.has c = true := List.find?_some (p := fun run => CaseRun.has run c) hfind
    have himage := of_decide_eq_true (List.all_eq_true.mp caseRuns_image_above_space run hrun)
    have hlower := CaseRun.toNat_lower hrun hc
    rw [← List.mem_singleton.mp hmem] at hlower
    change 0x20 = _ at hlower
    omega
  · exact (List.mem_singleton.mp hmem).symm

theorem space_notMem_toLower {text : List Char} (htext : ' ' ∉ text) : ' ' ∉ toLower text := by
  have hafter (before : List Char) : ' ' ∉ lowerAfter before text := by
    induction text generalizing before with
    | nil => exact List.not_mem_nil
    | cons c rest ih =>
        rw [lowerAfter_cons, List.mem_append, not_or]
        refine ⟨?_, ih (List.not_mem_of_not_mem_cons htext) (c :: before)⟩
        split
        · split <;> decide
        · exact fun hmem => htext (by rw [eq_space_of_mem_lowerChar hmem]; exact List.mem_cons_self)
  exact hafter []

theorem toLower_eq_nil_iff {text : List Char} : toLower text = [] ↔ text = [] := by
  refine ⟨fun htext => ?_, fun htext => by rw [htext]; rfl⟩
  cases text with
  | nil => rfl
  | cons c rest =>
      rw [toLower, lowerAfter_cons, List.append_eq_nil_iff] at htext
      have hchar : lowerChar c ≠ [] := by
        unfold lowerChar
        split
        · exact List.cons_ne_nil _ _
        split
        · exact List.cons_ne_nil _ _
        split <;> exact List.cons_ne_nil _ _
      have hfirst := htext.1
      split at hfirst
      · split at hfirst <;> cases hfirst
      · exact absurd hfirst hchar

-- No space comes or goes.
theorem splitOn_toLower (text : List Char) :
    (toLower text).splitOn ' ' = (text.splitOn ' ').map toLower := by
  refine splitOn_induction ' '
    (motive := fun text pieces => (toLower text).splitOn ' ' = pieces.map toLower) ?_ ?_ text
  · intro piece hpiece
    exact List.splitOn_eq_singleton (space_notMem_toLower hpiece)
  · intro piece rest hpiece ih
    rw [toLower_append, List.splitOn_append_cons_self_of_not_mem (space_notMem_toLower hpiece), ih]
    rfl

end Spaces

section Ascii

-- A letter of ASCII in either case.
def isLetter (c : Char) : Bool :=
  CodeRange.has ⟨0x41, 0x5A⟩ c || CodeRange.has ⟨0x61, 0x7A⟩ c

theorem caseIgnorableRanges_avoid_letters :
    (caseIgnorableRanges.all fun range => range.last < 0x41 || 0x7A < range.first ||
      (0x5A < range.first && range.last < 0x61)) = true := by
  decide +kernel

theorem isCaseIgnorable_eq_false {c : Char} (hletter : isLetter c) : isCaseIgnorable c = false := by
  refine List.any_eq_false.mpr fun range hrange hhas => ?_
  have havoid := List.all_eq_true.mp caseIgnorableRanges_avoid_letters range hrange
  simp only [Bool.or_eq_true, Bool.and_eq_true, decide_eq_true_eq] at havoid
  simp only [isLetter, CodeRange.has, Bool.or_eq_true, Bool.and_eq_true,
    decide_eq_true_eq] at hletter hhas
  omega

-- A function that gives the same for each capital of ASCII and its small letter cannot tell any
-- character from its small letter.
theorem apply_toLower {α : Type} (f : Char → α)
    (hcapital : ∀ n : Fin 26, f (Char.ofNat (0x41 + n)).toLower = f (Char.ofNat (0x41 + n)))
    (c : Char) : f c.toLower = f c := by
  by_cases hupper : c.val ≥ 'A'.val ∧ c.val ≤ 'Z'.val
  · have hfirst : 0x41 ≤ c.toNat := UInt32.le_iff_toNat_le.mp hupper.1
    have hlast : c.toNat ≤ 0x5A := UInt32.le_iff_toNat_le.mp hupper.2
    have hc := hcapital ⟨c.toNat - 0x41, by omega⟩
    rwa [Nat.add_sub_cancel' hfirst, Char.ofNat_toNat] at hc
  · exact congrArg f (dif_neg hupper)

theorem isCaseIgnorable_toLower (c : Char) : isCaseIgnorable c.toLower = isCaseIgnorable c := by
  have hletter : ∀ n : Fin 26, isLetter (Char.ofNat (0x41 + n)).toLower ∧
      isLetter (Char.ofNat (0x41 + n)) := by decide
  refine apply_toLower isCaseIgnorable (fun n => ?_) c
  rw [isCaseIgnorable_eq_false (hletter n).1, isCaseIgnorable_eq_false (hletter n).2]

theorem startsCased_map (text : List Char) :
    startsCased (text.map Char.toLower) = startsCased text := by
  induction text with
  | nil => rfl
  | cons c rest ih =>
      have hcased := apply_toLower isCased (by decide +kernel) c
      rw [List.map_cons, startsCased_cons, startsCased_cons, isCaseIgnorable_toLower, hcased, ih]

theorem lowerAfter_map (before text : List Char) :
    lowerAfter (before.map Char.toLower) (text.map Char.toLower) = lowerAfter before text := by
  induction text generalizing before with
  | nil => rfl
  | cons c rest ih =>
      have hsigma := apply_toLower (· = 'Σ') (by decide) c
      have hlower := apply_toLower lowerChar (by decide +kernel) c
      have hrest := ih (c :: before)
      rw [List.map_cons] at hrest
      rw [List.map_cons, lowerAfter_cons, lowerAfter_cons, startsCased_map, startsCased_map, hlower,
        hrest]
      simp only [hsigma]

-- Lower-casing a text is the same whatever the case of its ASCII letters is.
theorem toLower_map (text : List Char) : toLower (text.map Char.toLower) = toLower text :=
  lowerAfter_map [] text

end Ascii

end Verdict.Text

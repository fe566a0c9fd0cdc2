import Mathlib.Data.List.Basic
import Mathlib.Tactic.ByContra
import Verdict.Text.LowerCase

namespace Verdict.Text

-- Whether lower-casing leaves a character as it is, wherever it stands.
def IsLower (c : Char) : Prop := lowerChar c = [c]

instance (c : Char) : Decidable (IsLower c) := inferInstanceAs (Decidable (lowerChar c = [c]))

-- Whether the images of a run are not among the characters of another. Where the two overlap, both
-- go by steps of two and never meet.
def CaseRun.avoids (run other : CaseRun) : Bool :=
  (run.image + (run.last - run.first)).blt other.first || other.last.blt run.image ||
    (other.step == 2 && (run.step == 2 || run.last == run.first) &&
      (run.image + other.first) % 2 == 1)

-- The characters that are not lower-case ones: the capitals of ASCII, the dotted capital I and
-- those of the runs.
def capitalRuns : List CaseRun := ⟨0x41, 0x5A, 1, 0x61⟩ :: ⟨0x130, 0x130, 1, 0x69⟩ :: caseRuns

theorem caseRuns_avoid :
    (caseRuns.all fun run => capitalRuns.all fun other => run.avoids other) = true := by
  decide +kernel

-- No image is a surrogate or past the last code.
theorem caseRuns_image_isValid :
    (caseRuns.all fun run => run.image + (run.last - run.first) < 0xD800 ||
      (0xDFFF < run.image && run.image + (run.last - run.first) < 0x110000)) = true := by
  decide +kernel

namespace CaseRun

theorem toNat_lower {run : CaseRun} {c : Char} (hrun : run ∈ caseRuns) (hc : run.has c) :
    (run.lower c).toNat = run.image + (c.toNat - run.first) := by
  have hvalid := List.all_eq_true.mp caseRuns_image_isValid run hrun
  simp only [has, Bool.and_eq_true, decide_eq_true_eq] at hc
  simp only [Bool.or_eq_true, Bool.and_eq_true, decide_eq_true_eq] at hvalid
  have hlower : (run.image + (c.toNat - run.first)).isValidChar := by
    unfold Nat.isValidChar
    omega
  rw [lower, Char.ofNat, dif_pos hlower]
  rfl

theorem has_eq_false_of_avoids {run other : CaseRun} {c d : Char} (havoids : run.avoids other)
    (hc : run.has c) (hd : d.toNat = run.image + (c.toNat - run.first)) :
    other.has d = false := by
  by_contra hother
  simp only [avoids, Bool.or_eq_true, Bool.and_eq_true, Nat.blt_eq, beq_iff_eq] at havoids
  simp only [has, Bool.and_eq_true, decide_eq_true_eq, beq_iff_eq] at hc
  simp only [has, Bool.not_eq_false, Bool.and_eq_true, decide_eq_true_eq, beq_iff_eq] at hother
  obtain ⟨⟨hfirst, hlast⟩, hmod⟩ := hc
  obtain ⟨⟨hfirst', hlast'⟩, hmod'⟩ := hother
  rcases havoids with (habove | hbelow) | ⟨⟨htwo, hrun⟩, hodd⟩
  · omega
  · omega
  · have heven : (c.toNat - run.first) % 2 = 0 := by
      rcases hrun with hrun | hsingle
      · rwa [hrun] at hmod
      · have hzero : c.toNat - run.first = 0 := by omega
        rw [hzero]
    rw [htwo] at hmod'
    omega

end CaseRun

-- The characters of ASCII, by their codes.
theorem forall_ascii {motive : Char → Prop} (h : ∀ n : Fin 0x80, motive (Char.ofNat n))
    {c : Char} (hascii : c.toNat < 0x80) : motive c := by
  have hc := h ⟨c.toNat, hascii⟩
  rwa [Char.ofNat_toNat] at hc

theorem isLower_of_ascii {c : Char} (hascii : c.toNat < 0x80) :
    CaseRun.has ⟨0x41, 0x5A, 1, 0x61⟩ c = false → IsLower c :=
  forall_ascii (motive := fun c => CaseRun.has ⟨0x41, 0x5A, 1, 0x61⟩ c = false → IsLower c)
    (by decide +kernel) hascii

theorem isLower_toLower {c : Char} (hascii : c.toNat < 0x80) : IsLower c.toLower :=
  forall_ascii (motive := fun c => IsLower c.toLower) (by decide +kernel) hascii

theorem isAlphanum_eq (c : Char) : c.isAlphanum = (c.isUpper || c.isLower || c.isDigit) := rfl

theorem ascii_of_isAlphanum {c : Char} (hc : c.isAlphanum) : c.toNat < 0x80 := by
  have hbound {last : Char} (hle : c.val ≤ last.val) (hlast : last.toNat < 0x80) :
      c.toNat < 0x80 := Nat.lt_of_le_of_lt (UInt32.le_iff_toNat_le.mp hle) hlast
  rw [isAlphanum_eq, Bool.or_eq_true, Bool.or_eq_true] at hc
  rcases hc with (hupper | hlower) | hdigit
  · have hrange : c.val ≥ 'A'.val ∧ c.val ≤ 'Z'.val := of_decide_eq_true hupper
    exact hbound hrange.2 (by decide)
  · have hlast := (Bool.and_eq_true_iff.mp hlower).2
    exact hbound (of_decide_eq_true hlast) (by decide)
  · have hlast := (Bool.and_eq_true_iff.mp hdigit).2
    exact hbound (of_decide_eq_true hlast) (by decide)

theorem isUpper_eq_false_of_isLower {c : Char} (hlower : IsLower c) : c.isUpper = false := by
  by_contra hupper
  have hascii := ascii_of_isAlphanum (c := c) (by simp [isAlphanum_eq, hupper])
  exact hupper (forall_ascii (motive := fun c => IsLower c → c.isUpper = false) (by decide +kernel)
    hascii hlower)

theorem isLower_of_letter {c : Char} (hc : c.isLower ∨ c.isDigit ∨ c = '_') : IsLower c := by
  have hascii : c.toNat < 0x80 := by
    rcases hc with hletter | hdigit | rfl
    · exact ascii_of_isAlphanum (by simp [isAlphanum_eq, hletter])
    · exact ascii_of_isAlphanum (by simp [isAlphanum_eq, hdigit])
    · decide
  exact forall_ascii (motive := fun c => c.isLower ∨ c.isDigit ∨ c = '_' → IsLower c)
    (by decide +kernel) hascii hc

-- A character of none of these runs has no other lower-case form.
theorem isLower_of_forall_has {c : Char} (hc : ∀ run ∈ capitalRuns, run.has c = false) :
    IsLower c := by
  have hdot : c ≠ 'İ' := by
    rintro rfl
    have hfalse := hc ⟨0x130, 0x130, 1, 0x69⟩ (by simp [capitalRuns])
    revert hfalse
    decide
  have hfind : caseRuns.find? (·.has c) = none := by
    refine List.find?_eq_none.mpr fun run hrun => ?_
    rw [hc run (List.mem_cons_of_mem _ (List.mem_cons_of_mem _ hrun))]
    exact Bool.false_ne_true
  by_cases hascii : c.toNat < 0x80
  · exact isLower_of_ascii hascii (hc _ List.mem_cons_self)
  · rw [IsLower, lowerChar, if_neg hascii, if_neg hdot, hfind]

-- The lower-case form of a character is lower-case.
theorem isLower_of_mem_lowerChar {c d : Char} (hd : d ∈ lowerChar c) : IsLower d := by
  unfold lowerChar at hd
  split at hd
  · rename_i hascii
    obtain rfl := List.mem_singleton.mp hd
    exact isLower_toLower hascii
  rename_i hascii
  split at hd
  · rcases List.mem_cons.mp hd with rfl | hdot
    · exact rfl
    · obtain rfl := List.mem_singleton.mp hdot
      decide +kernel
  rename_i hdot
  split at hd
  · rename_i run hfind
    obtain rfl := List.mem_singleton.mp hd
    have hrun := List.mem_of_find?_eq_some hfind
    have hc : run.has c = true := List.find?_some (p := fun run => CaseRun.has run c) hfind
    have havoids := List.all_eq_true.mp caseRuns_avoid run hrun
    exact isLower_of_forall_has fun other hother =>
      CaseRun.has_eq_false_of_avoids (List.all_eq_true.mp havoids other hother) hc
        (CaseRun.toNat_lower hrun hc)
  · rename_i hfind
    obtain rfl := List.mem_singleton.mp hd
    rw [IsLower, lowerChar, if_neg hascii, if_neg hdot, hfind]

theorem isLower_of_mem_lowerAfter {before text : List Char} {c : Char}
    (hc : c ∈ lowerAfter before text) : IsLower c := by
  induction text generalizing before with
  | nil => cases hc
  | cons first rest ih =>
      rw [lowerAfter] at hc
      rcases List.mem_append.mp hc with hfirst | hrest
      · split at hfirst
        · split at hfirst
          · obtain rfl := List.mem_singleton.mp hfirst
            decide +kernel
          · obtain rfl := List.mem_singleton.mp hfirst
            decide +kernel
        · exact isLower_of_mem_lowerChar hfirst
      · exact ih hrest

theorem isLower_of_mem_toLower {text : List Char} {c : Char} (hc : c ∈ toLower text) : IsLower c :=
  isLower_of_mem_lowerAfter hc

theorem lowerAfter_eq_self {before text : List Char} (htext : ∀ c ∈ text, IsLower c) :
    lowerAfter before text = text := by
  induction text generalizing before with
  | nil => rfl
  | cons c rest ih =>
      obtain ⟨hc, hrest⟩ := List.forall_mem_cons.mp htext
      have hsigma : c ≠ 'Σ' := by
        rintro rfl
        revert hc
        decide +kernel
      have hlower : lowerChar c = [c] := hc
      rw [lowerAfter, if_neg hsigma, hlower, ih hrest]
      rfl

-- Lower-casing leaves a text as it is if and only if it does so with each of its characters.
theorem toLower_eq_self_iff {text : List Char} :
    toLower text = text ↔ ∀ c ∈ text, IsLower c := by
  constructor
  · intro htext c hc
    rw [← htext] at hc
    exact isLower_of_mem_toLower hc
  · exact lowerAfter_eq_self

end Verdict.Text

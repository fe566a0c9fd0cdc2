import Verdict.Proofs.Source.Assembly
import Verdict.Proofs.Source.Operand

namespace Verdict

namespace Entry

-- The recorded depth is that of the formula and within the limit.
def IsExact (entry : Entry) : Prop :=
  entry.depth = entry.formula.depth ∧ entry.depth ≤ maxDepth

theorem eq_of_checked {entry result : Entry} (hchecked : entry.checked = .ok result) :
    result = entry ∧ result.depth ≤ maxDepth := by
  unfold checked at hchecked
  split at hchecked
  · rename_i hdepth
    obtain rfl := Except.ok.inj hchecked
    exact ⟨rfl, hdepth⟩
  · cases hchecked

theorem isExact_of_checked {entry result : Entry} (hdepth : entry.depth = entry.formula.depth)
    (hchecked : entry.checked = .ok result) : result.IsExact := by
  obtain ⟨rfl, hle⟩ := eq_of_checked hchecked
  exact ⟨hdepth, hle⟩

theorem isExact_of_negated {times : Nat} {entry result : Entry} (hentry : entry.IsExact)
    (hnegated : entry.negated times = .ok result) : result.IsExact := by
  refine isExact_of_checked ?_ hnegated
  rw [Formula.depth_repeat_not, hentry.1]

theorem isExact_of_joined {op : Operator} {left right result : Entry} (hleft : left.IsExact)
    (hright : right.IsExact) (hjoined : joined op left right = .ok result) : result.IsExact := by
  refine isExact_of_checked ?_ hjoined
  simp only [Formula.depth, hleft.1, hright.1]

theorem isExact_of_readBare {text : List Char} {following : List Token} {entry : Entry} {taken : Nat}
    (hread : Operand.readBare text following = (.ok entry, taken)) : entry.IsExact := by
  obtain ⟨formula, rfl, hspells⟩ := Operand.spells_of_readBare hread
  have hdepth := hspells.depth_le
  refine ⟨rfl, ?_⟩
  simp only [ofFormula, maxDepth]
  omega

end Entry

def Frame.IsExact : Frame → Prop
  | .opened _ => True
  | .extending _ left => left.IsExact

theorem Frame.IsExact.takeOperands {frame : Frame} {stack below : List Entry} {op : Operator}
    {left right : Entry} (hframe : frame.IsExact) (hstack : ∀ entry ∈ stack, entry.IsExact)
    (htake : Assembly.takeOperands frame stack = .ok (op, left, right, below)) :
    left.IsExact ∧ right.IsExact ∧ ∀ entry ∈ below, entry.IsExact := by
  unfold Assembly.takeOperands at htake
  split at htake
  · cases htake
    simpa [and_left_comm] using hstack
  · cases htake
    have hright : right.IsExact ∧ ∀ entry ∈ below, entry.IsExact := by simpa using hstack
    exact ⟨hframe, hright⟩
  · cases htake

-- Operands are read with the depth that they have.
theorem Operand.isExact_of_read {word : List Char} {tokens : List Token} {entry : Entry}
    {taken : Nat} (hread : read word tokens = (.ok entry, taken)) : entry.IsExact := by
  unfold read at hread
  split at hread
  · cases hread
  cases hbare : readBare (word.dropWhile (· = '!')) tokens with
  | mk reading count =>
      simp only [hbare, Prod.mk.injEq] at hread
      obtain ⟨bare, rfl, hnegated⟩ := Except.bind_eq_ok_iff.mp hread.1
      exact Entry.isExact_of_negated (Entry.isExact_of_readBare hbare) hnegated

theorem Segment.isExact_of_mem_ofTokens {tokens : List Token} {entry : Entry}
    (hentry : .operand (.ok entry) ∈ ofTokens tokens) : entry.IsExact := by
  induction hlength : tokens.length using Nat.strongRecOn generalizing tokens with
  | _ length ih =>
      cases tokens with
      | nil => cases hentry
      | cons token tokens =>
          simp only [List.length_cons] at hlength
          cases token with
          | bool value =>
              rcases List.mem_cons.mp hentry with hvalue | hrest
              · cases hvalue
                exact ⟨rfl, show 1 ≤ maxDepth by decide⟩
              · exact ih tokens.length (by omega) hrest rfl
          | operator op =>
              rcases List.mem_cons.mp hentry with hop | hrest
              · cases hop
              · exact ih tokens.length (by omega) hrest rfl
          | word text =>
              cases hread : Operand.read text.toList tokens with
              | mk reading taken =>
                  have hle : (tokens.drop taken).length ≤ tokens.length := by simp
                  rw [ofTokens_word text hread] at hentry
                  rcases List.mem_cons.mp hentry with hword | hrest
                  · cases hword
                    exact Operand.isExact_of_read hread
                  · exact ih (tokens.drop taken).length (by omega) hrest rfl

namespace Assembly

-- The recorded depths are exact and within the limit, and the counter is the number of waiting
-- operators and within the limit.
structure IsExact (state : Assembly) : Prop where
  entries : ∀ entry ∈ state.stack, entry.IsExact
  held : ∀ frame ∈ state.frames, frame.IsExact
  nesting_eq : state.nesting = state.frames.length
  nesting_le : state.nesting ≤ maxDepth

theorem isExact_of_settle {more : Bool} {frames : List Frame} {stack : List Entry} {nesting : Nat}
    {next : Assembly} (h : IsExact ⟨stack, frames, nesting⟩)
    (hsettle : settle more frames stack nesting = .ok next) : next.IsExact := by
  induction frames generalizing stack nesting with
  | nil =>
      cases hsettle
      exact h
  | cons frame frames ih =>
      have hframes := List.forall_mem_cons.mp h.held
      have hnesting : nesting = frames.length + 1 := h.nesting_eq
      have hle : nesting ≤ maxDepth := h.nesting_le
      obtain ⟨op, left, right, below, htake, hcase⟩ := settle_cases hsettle
      obtain ⟨hleft, hright, hbelow⟩ := hframes.1.takeOperands h.entries htake
      rcases hcase with ⟨-, rfl⟩ | ⟨-, whole, hjoined, hsettle⟩
      · exact ⟨List.forall_mem_cons.mpr ⟨hright, hbelow⟩,
          List.forall_mem_cons.mpr ⟨hleft, hframes.2⟩, hnesting, hle⟩
      · have hwhole := Entry.isExact_of_joined hleft hright hjoined
        have hnext : IsExact ⟨whole :: below, frames, nesting - 1⟩ :=
          ⟨List.forall_mem_cons.mpr ⟨hwhole, hbelow⟩, hframes.2,
            show nesting - 1 = frames.length by omega, show nesting - 1 ≤ maxDepth by omega⟩
        exact ih hnext hsettle

theorem isExact_of_step {more : Bool} {state next : Assembly} {segment : Segment}
    (h : state.IsExact) (hsegment : ∀ entry, segment = .operand (.ok entry) → entry.IsExact)
    (hstep : state.step more segment = .ok next) : next.IsExact := by
  obtain ⟨hlt, ⟨op, rfl, rfl⟩ | ⟨entry, rfl, hsettle⟩⟩ := step_cases hstep
  · refine ⟨h.entries, List.forall_mem_cons.mpr ⟨trivial, h.held⟩, ?_, hlt⟩
    rw [h.nesting_eq, List.length_cons]
  · have hpushed : IsExact ⟨entry :: state.stack, state.frames, state.nesting⟩ :=
      ⟨List.forall_mem_cons.mpr ⟨hsegment entry rfl, h.entries⟩, h.held, h.nesting_eq, h.nesting_le⟩
    exact isExact_of_settle hpushed hsettle

-- The states between the segments of a run, each with the segments that are left.
inductive Visits (segments : List Segment) : Assembly → List Segment → Prop
  | start : Visits segments .start segments
  | step {state next : Assembly} {segment : Segment} {rest : List Segment}
    (h : Visits segments state (segment :: rest))
    (hstep : state.step (!rest.isEmpty) segment = .ok next) : Visits segments next rest

theorem Visits.suffix {segments rest : List Segment} {state : Assembly}
    (h : Visits segments state rest) : rest <:+ segments := by
  induction h with
  | start => exact List.suffix_refl segments
  | step h hstep ih => exact (List.suffix_cons _ _).trans ih

theorem isExact_of_visits {tokens : List Token} {state : Assembly} {rest : List Segment}
    (h : Visits (Segment.ofTokens tokens) state rest) : state.IsExact := by
  induction h with
  | start => exact ⟨by simp [start], by simp [start], rfl, Nat.zero_le _⟩
  | step h hstep ih =>
      refine isExact_of_step ih (fun entry hsegment => ?_) hstep
      have hmem := h.suffix.mem List.mem_cons_self
      rw [hsegment] at hmem
      exact Segment.isExact_of_mem_ofTokens hmem

end Assembly

end Verdict

import Verdict.Proofs.Descent.Basic
import Verdict.Proofs.Source.Exact

namespace Verdict

def Rule.IsExact : Rule → Prop
  | .operand => True
  | .operator frame => frame.IsExact

namespace Descent

-- Recorded depths are exact and within the limit, and the counter is the number of calls in
-- progress and within the limit.
structure Exact (stack : List Entry) (rules : List Rule) (nesting : Nat) : Prop where
  entries : ∀ entry ∈ stack, entry.IsExact
  held : ∀ rule ∈ rules, rule.IsExact
  nesting_eq : nesting = rules.length
  nesting_le : nesting ≤ maxDepth

-- What holds at every point of a run.
structure Sound (state : Descent) : Prop extends Exact state.stack state.rules state.nesting where
  halted : ∀ formula, state.phase = .halted (.ok (some formula)) → formula.depth ≤ maxDepth

namespace Exact

variable {tokens : List Token} {stack : List Entry} {rules : List Rule} {nesting : Nat}

theorem sound {phase : Phase} (h : Exact stack rules nesting)
    (hphase : ∀ formula, phase ≠ .halted (.ok (some formula))) :
    Sound ⟨tokens, stack, rules, nesting, phase⟩ :=
  ⟨h, fun formula hhalted => absurd hhalted (hphase formula)⟩

theorem push {entry : Entry} (h : Exact stack rules nesting) (hentry : entry.IsExact) :
    Exact (entry :: stack) rules nesting :=
  ⟨List.forall_mem_cons.mpr ⟨hentry, h.entries⟩, h.held, h.nesting_eq, h.nesting_le⟩

theorem of_subset {below : List Entry} (h : Exact stack rules nesting) (hbelow : below ⊆ stack) :
    Exact below rules nesting :=
  ⟨fun entry hentry => h.entries entry (hbelow hentry), h.held, h.nesting_eq, h.nesting_le⟩

theorem call {rule : Rule} (h : Exact stack rules nesting) (hrule : rule.IsExact)
    (hlt : nesting < maxDepth) : Exact stack (rule :: rules) (nesting + 1) := by
  refine ⟨h.entries, List.forall_mem_cons.mpr ⟨hrule, h.held⟩, ?_, hlt⟩
  rw [h.nesting_eq, List.length_cons]

theorem advance (h : Exact stack rules nesting) : Sound (advance stack rules nesting tokens) := by
  unfold Descent.advance
  split
  · exact h.sound (by simp)
  split
  · refine ⟨h.of_subset (by simp), fun formula hhalted => ?_⟩
    cases hhalted
    have hentry := h.entries _ List.mem_cons_self
    exact hentry.1 ▸ hentry.2
  · exact (h.of_subset (List.drop_subset 1 stack)).sound (by simp)

theorem readWord {word : List Char} (h : Exact stack rules nesting) :
    Sound (readWord word tokens stack rules nesting) := by
  unfold Descent.readWord
  split
  · exact h.sound (by simp)
  split
  · rename_i entry taken hread
    exact (h.push (Entry.isExact_of_readBare hread)).sound (by simp)
  · exact h.sound (by simp)

theorem enter {token : Token} (h : Exact stack rules nesting) :
    Sound (enter token tokens stack rules nesting) := by
  unfold Descent.enter
  split
  · exact h.sound (by simp)
  rename_i hdeep
  have hlt : nesting < maxDepth := Nat.not_le.mp hdeep
  cases token with
  | bool value =>
      have hvalue : (Entry.leaf (.constant (.bool value))).IsExact := ⟨rfl, show 1 ≤ maxDepth by decide⟩
      have hcall : Exact stack (.operand :: rules) (nesting + 1) := h.call trivial hlt
      exact (hcall.push hvalue).sound (by simp)
  | word text =>
      have hcall : Exact stack (.operand :: rules) (nesting + 1) := h.call trivial hlt
      exact hcall.readWord
  | operator op =>
      have hcall : Exact stack (.operator (.opened op) :: rules) (nesting + 1) := h.call trivial hlt
      cases tokens <;> exact hcall.sound (by simp)

theorem negate {marks : Nat} (h : Exact stack rules nesting) :
    Sound (negate tokens rules nesting marks stack) := by
  unfold Descent.negate
  split
  · exact h.sound (by simp)
  · exact h.sound (by simp)
  · rename_i marks entry below
    have hbelow : Exact below rules nesting := h.of_subset (List.subset_cons_self entry below)
    have hentry : entry.IsExact := h.entries entry List.mem_cons_self
    split
    · rename_i result hnegated
      exact (hbelow.push (Entry.isExact_of_negated hentry hnegated)).sound (by simp)
    · exact hbelow.sound (by simp)

theorem leave {result : Except ParseError Unit} (h : Exact stack rules nesting) :
    Sound (leave result tokens stack nesting rules) := by
  cases rules with
  | nil => exact h.sound (by simp)
  | cons rule outer =>
      have hnesting := h.nesting_eq
      have hle := h.nesting_le
      have houter : ∀ rule ∈ outer, rule.IsExact := fun rule hrule =>
        h.held rule (List.mem_cons_of_mem _ hrule)
      have hexact : Exact stack outer (nesting - 1) := by
        refine ⟨h.entries, houter, ?_, by omega⟩
        rw [hnesting, List.length_cons, Nat.add_sub_cancel]
      exact hexact.sound (by simp)

theorem join {op : Operator} {left right : Entry} (h : Exact stack rules nesting)
    (hleft : left.IsExact) (hright : right.IsExact) :
    Sound (join op left right tokens stack rules nesting) := by
  unfold Descent.join
  split
  · rename_i whole hjoined
    exact (h.push (Entry.isExact_of_joined hleft hright hjoined)).sound (by simp)
  · exact h.sound (by simp)

-- The rule of an operator may change while it is in progress.
theorem replace {rule other : Rule} (h : Exact stack (rule :: rules) nesting)
    (hother : other.IsExact) : Exact stack (other :: rules) nesting :=
  ⟨h.entries, List.forall_mem_cons.mpr ⟨hother, (List.forall_mem_cons.mp h.held).2⟩, h.nesting_eq,
    h.nesting_le⟩

theorem combine {frame : Frame} (h : Exact stack (.operator frame :: rules) nesting) :
    Sound (combine frame tokens stack rules nesting) := by
  unfold Descent.combine
  split
  · exact (h.of_subset (List.nil_subset stack)).sound (by simp)
  rename_i op left right below htake
  have hframe : frame.IsExact := h.held _ List.mem_cons_self
  obtain ⟨hleft, hright, hbelow⟩ := hframe.takeOperands h.entries htake
  have hexact : Exact below (.operator frame :: rules) nesting :=
    ⟨hbelow, h.held, h.nesting_eq, h.nesting_le⟩
  split
  swap
  · exact hexact.join hleft hright
  split
  swap
  · exact hexact.join hleft hright
  have hextending : Exact below (.operator (.extending op left) :: rules) nesting :=
    hexact.replace hleft
  unfold Descent.extend
  split
  · rename_i entry hchecked
    exact (hextending.push (Entry.isExact_of_checked hright.1 hchecked)).sound (by simp)
  · exact hextending.sound (by simp)

theorem resume {result : Except ParseError Unit} (h : Exact stack rules nesting) :
    Sound (resume tokens stack nesting rules result) := by
  unfold Descent.resume
  split
  · exact h.sound (by simp)
  · exact h.sound (by simp)
  · exact h.combine
  · exact h.sound (by simp)

end Exact

theorem sound_start (tokens : List Token) : Sound (start tokens) := by
  refine Exact.sound ⟨by simp, by simp, rfl, Nat.zero_le _⟩ fun formula hphase => ?_
  split at hphase <;> cases hphase

theorem sound_step {state : Descent} (h : Sound state) : Sound state.step := by
  unfold step
  split
  · exact h.toExact.advance
  · exact h.toExact.enter
  · exact h.toExact.negate
  · exact h.toExact.leave
  · exact h.toExact.resume
  · exact h

theorem sound_iterate {state : Descent} (h : Sound state) (count : Nat) : Sound (step^[count] state) := by
  induction count generalizing state with
  | zero => exact h
  | succ count ih => exact ih (sound_step h)

end Descent

end Verdict

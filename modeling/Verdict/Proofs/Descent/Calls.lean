import Mathlib.Data.List.Infix
import Verdict.Proofs.Descent.Basic

namespace Verdict.Descent

-- A call inside of the calls in `outer` is in progress.
def Inside (outer : List Rule) (state : Descent) : Prop :=
  ∃ rule, (rule :: outer) <:+ state.rules

-- Steps that lead from one state to another and stay inside of a call until then.
def Reaches (outer : List Rule) (first last : Descent) : Prop :=
  ∃ count, step^[count] first = last ∧ ∀ i < count, Inside outer (step^[i] first)

theorem Inside.of_cons {rule : Rule} {outer : List Rule} {state : Descent}
    (h : Inside (rule :: outer) state) : Inside outer state := by
  obtain ⟨inner, hsuffix⟩ := h
  exact ⟨rule, (List.suffix_cons inner _).trans hsuffix⟩

theorem Inside.of_eq {rule : Rule} {outer : List Rule} {state : Descent}
    (hrules : state.rules = rule :: outer) : Inside outer state :=
  ⟨rule, by rw [hrules]⟩

namespace Reaches

variable {outer : List Rule} {first middle last : Descent}

theorem refl (outer : List Rule) (state : Descent) : Reaches outer state state :=
  ⟨0, rfl, fun i hi => absurd hi (Nat.not_lt_zero i)⟩

theorem step_trans (hinside : Inside outer first) (h : Reaches outer first.step last) :
    Reaches outer first last := by
  obtain ⟨count, hlast, hcount⟩ := h
  refine ⟨count + 1, hlast, fun i hi => ?_⟩
  cases i with
  | zero => exact hinside
  | succ i => exact hcount i (by omega)

theorem trans (h₁ : Reaches outer first middle) (h₂ : Reaches outer middle last) :
    Reaches outer first last := by
  obtain ⟨count, hmiddle, hcount⟩ := h₁
  induction count generalizing first with
  | zero =>
      have hfirst : first = middle := hmiddle
      rwa [hfirst]
  | succ count ih =>
      refine step_trans (hcount 0 (by omega)) (ih hmiddle fun i hi => ?_)
      exact hcount (i + 1) (by omega)

theorem of_cons {rule : Rule} (h : Reaches (rule :: outer) first last) :
    Reaches outer first last := by
  obtain ⟨count, hlast, hcount⟩ := h
  exact ⟨count, hlast, fun i hi => (hcount i hi).of_cons⟩

end Reaches

-- The innermost call ends: the calls that it still makes are inside of it and end before, and then
-- the calls in `outer` are in progress and counted as given.
def Ends (outer : List Rule) (nesting : Nat) (tokens : List Token) (state : Descent) : Prop :=
  ∃ last result, Reaches outer state last ∧ last.phase = .returned result ∧
    last.rules = outer ∧ last.nesting = nesting ∧ last.tokens <:+ tokens

-- The call that a state is at the start of ends and leaves what is in progress and the counter as
-- it found them.
def Returns (call : Descent) : Prop := Ends call.rules call.nesting call.tokens call.step

section Ends

variable {rule : Rule} {outer : List Rule} {nesting : Nat} {tokens : List Token}

theorem Ends.of_step {state : Descent} (hrules : state.rules = rule :: outer)
    (h : Ends outer nesting tokens state.step) : Ends outer nesting tokens state := by
  obtain ⟨last, result, hreaches, hlast⟩ := h
  exact ⟨last, result, hreaches.step_trans (.of_eq hrules), hlast⟩

theorem Ends.of_suffix {state : Descent} {longer : List Token} (hsuffix : tokens <:+ longer)
    (h : Ends outer nesting tokens state) : Ends outer nesting longer state := by
  obtain ⟨last, result, hreaches, hphase, hrules, hnesting, htokens⟩ := h
  exact ⟨last, result, hreaches, hphase, hrules, hnesting, htokens.trans hsuffix⟩

theorem ends_leaving (tokens : List Token) (stack : List Entry) (rule : Rule) (outer : List Rule)
    (nesting : Nat) (result : Except ParseError Unit) :
    Ends outer nesting tokens ⟨tokens, stack, rule :: outer, nesting + 1, .leaving result⟩ :=
  .of_step rfl ⟨_, result, .refl outer _, rfl, rfl, rfl, List.suffix_refl tokens⟩

theorem ends_join (op : Operator) (left right : Entry) (tokens : List Token) (stack : List Entry)
    (rule : Rule) (outer : List Rule) (nesting : Nat) :
    Ends outer nesting tokens (join op left right tokens stack (rule :: outer) (nesting + 1)) := by
  unfold join
  split <;> exact ends_leaving ..

theorem ends_negating (tokens : List Token) (stack : List Entry) (rule : Rule) (outer : List Rule)
    (nesting marks : Nat) :
    Ends outer nesting tokens ⟨tokens, stack, rule :: outer, nesting + 1, .negating marks⟩ := by
  refine .of_step rfl ?_
  change Ends _ _ _ (negate tokens (rule :: outer) (nesting + 1) marks stack)
  unfold negate
  split
  · exact ends_leaving ..
  · exact ends_leaving ..
  · split <;> exact ends_leaving ..

theorem ends_readWord (word : List Char) (tokens : List Token) (stack : List Entry) (rule : Rule)
    (outer : List Rule) (nesting : Nat) :
    Ends outer nesting tokens (readWord word tokens stack (rule :: outer) (nesting + 1)) := by
  unfold readWord
  split
  · exact ends_leaving ..
  · split
    · exact (ends_negating ..).of_suffix (List.drop_suffix _ tokens)
    · exact (ends_leaving ..).of_suffix (List.drop_suffix _ tokens)

-- A call that makes a call ends if it ends from where that call has returned.
theorem Ends.of_returns {call : Descent} (hcall : Returns call) (hrules : call.rules = rule :: outer)
    (hrest : ∀ tokens' stack result, tokens' <:+ call.tokens →
      Ends outer nesting tokens ⟨tokens', stack, rule :: outer, call.nesting, .returned result⟩) :
    Ends outer nesting tokens call := by
  obtain ⟨⟨tokens', stack, rules, count, phase⟩, result, hreaches, hphase, hlast, hcount, hsuffix⟩ :=
    hcall
  rw [hrules] at hreaches hlast
  simp only at hphase hlast hcount hsuffix
  subst hphase hlast hcount
  obtain ⟨last, final, hfinal, hends⟩ := hrest tokens' stack result hsuffix
  exact ⟨last, final, (hreaches.of_cons.trans hfinal).step_trans (.of_eq hrules), hends⟩

-- From where a call for a right operand has returned the operator's call ends, provided that the
-- calls it makes for tokens further on return.
theorem ends_returned {bound : Nat}
    (hcalls : ∀ call token, call.phase = .entering token → call.tokens.length < bound → Returns call)
    (tokens : List Token) (stack : List Entry) (frame : Frame) (outer : List Rule) (nesting : Nat)
    (result : Except ParseError Unit) (hbound : tokens.length ≤ bound) :
    Ends outer nesting tokens
      ⟨tokens, stack, .operator frame :: outer, nesting + 1, .returned result⟩ := by
  induction hlength : tokens.length using Nat.strongRecOn
    generalizing tokens stack frame result with
  | _ length ih =>
      refine .of_step rfl ?_
      cases result with
      | error error => exact ends_leaving ..
      | ok value =>
          change Ends _ _ _ (combine frame tokens stack outer (nesting + 1))
          unfold combine
          split
          · exact ends_leaving ..
          rename_i op left right below htake
          split
          swap
          · exact ends_join ..
          split
          swap
          · exact ends_join ..
          rename_i token rest
          unfold extend
          split
          swap
          · exact (ends_leaving ..).of_suffix (List.suffix_cons token rest)
          simp only [List.length_cons] at hbound hlength
          refine .of_returns (hcalls _ token rfl (by simp only; omega)) rfl ?_
          intro later stack result hsuffix
          have hle : later.length ≤ rest.length := hsuffix.length_le
          have hends := ih later.length (by omega) later stack (.extending op left) result (by omega) rfl
          exact hends.of_suffix (hsuffix.trans (List.suffix_cons token rest))

-- Every call returns.
theorem call_returns (call : Descent) {token : Token} (hphase : call.phase = .entering token) :
    Returns call := by
  induction hlength : call.tokens.length using Nat.strongRecOn generalizing call token with
  | _ length ih =>
      obtain ⟨tokens, stack, rules, nesting, phase⟩ := call
      simp only at hphase hlength
      subst hphase hlength
      change Ends rules nesting tokens (enter token tokens stack rules nesting)
      unfold enter
      split
      · exact ⟨_, _, .refl rules _, rfl, rfl, rfl, List.suffix_refl tokens⟩
      cases token with
      | bool value => exact ends_leaving ..
      | word text => exact ends_readWord ..
      | operator op =>
          cases tokens with
          | nil => exact ends_leaving ..
          | cons next rest =>
              have hcalls : ∀ call token, call.phase = .entering token →
                  call.tokens.length < rest.length + 1 → Returns call := by
                intro call token hphase hshorter
                exact ih call.tokens.length hshorter call hphase rfl
              refine .of_returns (hcalls _ next rfl (Nat.lt_succ_self _)) rfl ?_
              intro later stack result hsuffix
              have hle : later.length ≤ rest.length := hsuffix.length_le
              have hends := ends_returned hcalls later stack (.opened op) rules nesting result
                (by omega)
              exact hends.of_suffix (hsuffix.trans (List.suffix_cons next rest))

end Ends

end Verdict.Descent

import Verdict.Expression
import Verdict.Proofs.Evaluation.Readable
import Verdict.Proofs.Source.WellFormed

namespace Verdict

namespace Formula

-- A formula and all formulas within it.
def nodes : Formula → List Formula
  | .not operand => .not operand :: operand.nodes
  | .count operand => .count operand :: operand.nodes
  | .binary op left right => .binary op left right :: (left.nodes ++ right.nodes)
  | formula => [formula]

-- What must be found in a formula and a context for an error to come from them.
def Explains (context : Context) (formula : Formula) : EvalError → Prop
  | .typesMismatch => True
  | .typesNotLogical => ∃ left right, .binary .or left right ∈ formula.nodes
  | .unknownVariable name =>
    .count (.variable name) ∈ formula.nodes ∧ context.get? name = none
  | .unsupportedValue part =>
    ∃ name value, .variable name ∈ formula.nodes ∧ context.get? name = some value ∧
      value.firstUnsupported? = some part
  | .invalidNumber _ => False

variable {context : Context} {formula part : Formula} {error : EvalError}

theorem mem_nodes_self (formula : Formula) : formula ∈ formula.nodes := by
  cases formula <;> exact List.mem_cons_self

-- An error that a part explains is explained by the whole.
theorem Explains.of_subset (hsubset : part.nodes ⊆ formula.nodes)
    (h : part.Explains context error) : formula.Explains context error := by
  cases error with
  | typesMismatch => trivial
  | typesNotLogical =>
      obtain ⟨left, right, hmem⟩ := h
      exact ⟨left, right, hsubset hmem⟩
  | unknownVariable name => exact ⟨hsubset h.1, h.2⟩
  | unsupportedValue part =>
      obtain ⟨name, value, hmem, hbound⟩ := h
      exact ⟨name, value, hsubset hmem, hbound⟩
  | invalidNumber text => exact h.elim

theorem isReadable_of_lookup {name : String} {value : Constant}
    (hvalue : context.lookup name = .ok value) : value.IsReadable := by
  rw [Context.lookup] at hvalue
  split at hvalue
  · exact Constant.isReadable_of_ofHost hvalue
  · cases hvalue
    simp [Constant.IsReadable, Constant.numbers]

theorem isReadable_of_itemCount {name : String} {value : Constant}
    (hvalue : context.itemCount name = .ok value) : value.IsReadable := by
  obtain ⟨items, -, rfl⟩ := Context.itemCount_eq_ok_iff.mp hvalue
  have hcount := Constant.exists_readNumber_of_isLayout (Numeral.isLayout_toDigits items.length)
  rw [← Nat.repr_eq_ofList_toDigits] at hcount
  simpa [Constant.IsReadable, Constant.numbers] using hcount

-- The constants that well-formed formulas evaluate to can be compared.
theorem isReadable_of_evaluate {value : Constant} (h : formula.WellFormed)
    (hvalue : formula.evaluate context = .ok value) : value.IsReadable := by
  have htruth : formula.isLogical → value.IsReadable := by
    intro hlogical
    obtain ⟨outcome, houtcome⟩ := exists_evaluate_of_isLogical context hlogical
    rw [houtcome] at hvalue
    obtain ⟨truth, -, rfl⟩ := Except.map_eq_ok_iff.mp hvalue
    simp [Constant.IsReadable, Constant.numbers]
  cases formula with
  | constant literal =>
      cases hvalue
      exact Constant.isReadable_of_isLiteral h
  | «variable» name => exact isReadable_of_lookup hvalue
  | not operand => exact htruth rfl
  | count operand =>
      obtain ⟨name, rfl, -⟩ := h
      exact isReadable_of_itemCount hvalue
  | binary op left right => exact htruth rfl

theorem explains_of_ofHost {name : String} {value : HostValue}
    (hmem : .variable name ∈ formula.nodes) (hbound : context.get? name = some value)
    (herror : Constant.ofHost value = .error error) : formula.Explains context error := by
  obtain ⟨part, rfl, hpart⟩ := Constant.exists_unsupported_of_ofHost herror
  exact ⟨name, value, hmem, hbound, hpart⟩

theorem explains_itemCount {name : String}
    (herror : context.itemCount name = .error error) :
    (Formula.count (.variable name)).Explains context error := by
  rw [Context.itemCount] at herror
  split at herror
  · rename_i hnone
    cases herror
    exact ⟨List.mem_cons_self, hnone⟩
  · rename_i value hbound
    rcases Except.bind_eq_error_iff.mp herror with hhost | ⟨constant, -, hkind⟩
    · exact explains_of_ofHost (List.mem_cons_of_mem _ List.mem_cons_self) hbound hhost
    · split at hkind
      · cases hkind
      · cases hkind
        trivial

theorem explains_isTrue (hevaluate : ∀ error, formula.evaluate context = .error error →
      formula.Explains context error)
    (herror : formula.isTrue context = .error error) : formula.Explains context error := by
  rw [isTrue_eq_bind] at herror
  rcases Except.bind_eq_error_iff.mp herror with hvalue | ⟨value, -, hverdict⟩
  · exact hevaluate error hvalue
  · rw [Constant.eq_typesMismatch_of_verdict hverdict]
    trivial

-- Induction on the formula: an error comes from a part, or from the operator at the top, whose
-- operands can be compared.
theorem explains_of_evaluate (h : formula.WellFormed)
    (herror : formula.evaluate context = .error error) : formula.Explains context error := by
  induction formula generalizing error with
  | constant value => cases herror
  | «variable» name =>
      rw [evaluate, Context.lookup] at herror
      split at herror
      · rename_i value hbound
        exact explains_of_ofHost (mem_nodes_self _) hbound herror
      · cases herror
  | not operand ih =>
      rw [evaluate_not] at herror
      have htrue := Except.map_eq_error_iff.mp (Except.map_eq_error_iff.mp herror)
      exact (explains_isTrue (fun _ => ih h.2) htrue).of_subset (List.subset_cons_self _ _)
  | count operand ih =>
      obtain ⟨name, rfl, -⟩ := h
      exact explains_itemCount herror
  | binary op left right ihleft ihright =>
      have hleft : left.nodes ⊆ (binary op left right).nodes := fun _ hmem =>
        List.mem_cons_of_mem _ (List.mem_append_left _ hmem)
      have hright : right.nodes ⊆ (binary op left right).nodes := fun _ hmem =>
        List.mem_cons_of_mem _ (List.mem_append_right _ hmem)
      by_cases hop : op = .and
      · subst hop
        rw [evaluate_and] at herror
        rcases Except.bind_eq_error_iff.mp (Except.map_eq_error_iff.mp herror) with
          hfirst | ⟨value, -, hsecond⟩
        · exact (ihleft h.1 hfirst).of_subset hleft
        · split at hsecond
          · exact (explains_isTrue (fun _ => ihright h.2) hsecond).of_subset hright
          · cases hsecond
      · rw [evaluate_binary context left right hop] at herror
        rcases Except.bind_eq_error_iff.mp (Except.map_eq_error_iff.mp herror) with
          hfirst | ⟨leftValue, hleftValue, hmore⟩
        · exact (ihleft h.1 hfirst).of_subset hleft
        rcases Except.bind_eq_error_iff.mp hmore with hsecond | ⟨rightValue, hrightValue, happly⟩
        · exact (ihright h.2 hsecond).of_subset hright
        rcases Constant.error_of_apply (isReadable_of_evaluate h.1 hleftValue)
          (isReadable_of_evaluate h.2 hrightValue) happly with rfl | ⟨rfl, hlogical⟩
        · trivial
        · cases op with
          | or => exact ⟨left, right, List.mem_cons_self⟩
          | and => exact absurd rfl hop
          | _ => cases hlogical

end Formula

-- Where a source that compiles has no value in a context, the error comes from something that is
-- found in both. No number is ever in the way.
theorem evaluate_error_explained {source : String} {tree : Formula}
    (hparse : Formula.parse source = .ok (some tree)) (context : Context) :
    (∀ error, tree.evaluate context = .error error → tree.Explains context error) ∧
      ∀ error, evaluate source context = .error (.evaluation error) →
        tree.Explains context error := by
  obtain ⟨tokens, hscan, htree⟩ := Formula.exists_scan_of_parse hparse
  have hwell := Formula.wellFormed_of_ofTokens (Token.isPiece_of_scan hscan) htree
  refine ⟨fun error => Formula.explains_of_evaluate hwell, fun error herror => ?_⟩
  rw [evaluate_of_parse hparse] at herror
  obtain ⟨failure, hfailure, hsame⟩ := Except.mapError_eq_error_iff.mp herror
  cases hsame
  exact Formula.explains_isTrue (fun _ => Formula.explains_of_evaluate hwell) hfailure

-- The array behind `b` holds a null within another array, and a boolean after it.
theorem evaluate_error_explained_nested :
    evaluate "!a || B == 'x'" (Context.empty.insert "b"
        (.array [.number (.integer 1), .array [.string "y", .null], .bool true])) =
          .error (.evaluation (.unsupportedValue .null)) ∧
      ∃ name value, Formula.variable name ∈ (Formula.binary .or (.not (.variable "a"))
          (.binary .equal (.variable "b") (.constant (.string "x")))).nodes ∧
        (Context.empty.insert "b" (.array [.number (.integer 1), .array [.string "y", .null],
          .bool true])).get? name = some value ∧ value.firstUnsupported? = some .null := by
  have hparse : Formula.parse "!a || B == 'x'" =
      .ok (some (.binary .or (.not (.variable "a"))
        (.binary .equal (.variable "b") (.constant (.string "x"))))) := rfl
  have herror : evaluate "!a || B == 'x'" (Context.empty.insert "b"
      (.array [.number (.integer 1), .array [.string "y", .null], .bool true])) =
        .error (.evaluation (.unsupportedValue .null)) := by
    rfl
  exact ⟨herror, (evaluate_error_explained hparse _).2 _ herror⟩

end Verdict

import Verdict.Proofs.Evaluation.Attribution

namespace Verdict

namespace Formula

variable {left right : Context} {formula : Formula} {name : String}

-- Whether two contexts bind each variable of a formula to one value, or both leave it unbound.
def AgreeOn (formula : Formula) (left right : Context) : Prop :=
  ∀ name, .variable name ∈ formula.nodes → left.get? name = right.get? name

theorem lookup_congr (h : left.get? name = right.get? name) :
    left.lookup name = right.lookup name := by
  rw [Context.lookup, h, Context.lookup]

theorem itemCount_congr (h : left.get? name = right.get? name) :
    left.itemCount name = right.itemCount name := by
  rw [Context.itemCount, h, Context.itemCount]

theorem AgreeOn.of_subset {part : Formula} (h : formula.AgreeOn left right)
    (hsubset : part.nodes ⊆ formula.nodes) : part.AgreeOn left right :=
  fun name hmem => h name (hsubset hmem)

theorem isTrue_congr (h : formula.evaluate left = formula.evaluate right) :
    formula.isTrue left = formula.isTrue right := by
  rw [isTrue_eq_bind, isTrue_eq_bind, h]

-- Induction on the formula. A count takes its array from the context and evaluates no operand.
theorem evaluate_congr (h : formula.AgreeOn left right) :
    formula.evaluate left = formula.evaluate right := by
  induction formula with
  | constant value => rfl
  | «variable» name => exact lookup_congr (h name (mem_nodes_self _))
  | not operand ih =>
      have hoperand := isTrue_congr (ih (h.of_subset (List.subset_cons_self _ _)))
      rw [evaluate_not, evaluate_not, hoperand]
  | count operand =>
      cases operand with
      | «variable» name =>
          exact itemCount_congr (h name (List.mem_cons_of_mem _ (mem_nodes_self _)))
      | _ => rfl
  | binary op first second ihfirst ihsecond =>
      have hfirst := ihfirst (h.of_subset fun _ hmem =>
        List.mem_cons_of_mem _ (List.mem_append_left _ hmem))
      have hsecond := ihsecond (h.of_subset fun _ hmem =>
        List.mem_cons_of_mem _ (List.mem_append_right _ hmem))
      by_cases hop : op = .and
      · subst hop
        rw [evaluate_and, evaluate_and, hfirst, isTrue_congr hsecond]
      · rw [evaluate_binary _ _ _ hop, evaluate_binary _ _ _ hop, hfirst, hsecond]

theorem isName_of_mem_nodes (h : formula.WellFormed) (hmem : .variable name ∈ formula.nodes) :
    IsName name.toList := by
  induction formula with
  | constant value => simp [nodes] at hmem
  | «variable» other =>
      obtain rfl : name = other := by simpa [nodes] using hmem
      exact h.1
  | not operand ih => exact ih h.2 (by simpa [nodes] using hmem)
  | count operand =>
      obtain ⟨other, rfl, hname⟩ := h
      obtain rfl : name = other := by simpa [nodes] using hmem
      exact hname
  | binary op first second ihfirst ihsecond =>
      have hparts : .variable name ∈ first.nodes ∨ .variable name ∈ second.nodes := by
        simpa [nodes] using hmem
      rcases hparts with hfirst | hsecond
      · exact ihfirst h.1 hfirst
      · exact ihsecond h.2 hsecond

-- Two contexts that differ only at a key that cannot be written down.
theorem agreeOn_of_not_isName {key : String} (h : formula.WellFormed) (hkey : ¬IsName key.toList)
    (hother : ∀ name, key ≠ name → left.get? name = right.get? name) :
    formula.AgreeOn left right := by
  intro name hmem
  refine hother name ?_
  rintro rfl
  exact hkey (isName_of_mem_nodes h hmem)

end Formula

section Names

variable {left right : Context} {source key : String}

-- What a source denotes has one value in contexts that differ only at a key that is no name.
theorem evaluate_tree_congr {tree : Formula} (hparse : Formula.parse source = .ok (some tree))
    (hkey : ¬Formula.IsName key.toList)
    (hother : ∀ name, key ≠ name → left.get? name = right.get? name) :
    tree.evaluate left = tree.evaluate right := by
  obtain ⟨tokens, hscan, htree⟩ := Formula.exists_scan_of_parse hparse
  have hwell := Formula.wellFormed_of_ofTokens (Token.isPiece_of_scan hscan) htree
  exact Formula.evaluate_congr (Formula.agreeOn_of_not_isName hwell hkey hother)

theorem evaluate_source_congr (hkey : ¬Formula.IsName key.toList)
    (hother : ∀ name, key ≠ name → left.get? name = right.get? name) :
    evaluate source left = evaluate source right := by
  rw [evaluate, evaluate, Expression.compile]
  cases hparse : Formula.parse source with
  | error error => rfl
  | ok tree =>
      cases tree with
      | none => rfl
      | some tree =>
          have htrue := Formula.isTrue_congr (evaluate_tree_congr hparse hkey hother)
          simp only [Except.bind_eq_bind, Except.ok_mapError, Except.ok_bind, Except.pure_def,
            Expression.evaluateWith, htrue]

end Names

-- A formula has the same value, or the same error, in any two contexts that agree on its variables.
-- No key but a name of small letters, digits and underscores is ever a variable of a source, so all
-- other keys can be bound, bound anew and removed without any effect.
theorem evaluate_reads_variables :
    (∀ (formula : Formula) (left right : Context),
        (∀ name, .variable name ∈ formula.nodes → left.get? name = right.get? name) →
          formula.evaluate left = formula.evaluate right ∧
            formula.isTrue left = formula.isTrue right) ∧
      ∀ (source key : String), ¬Formula.IsName key.toList →
        ∀ (context : Context) (value : HostValue),
        (evaluate source (context.insert key value) = evaluate source context ∧
          evaluate source (context.erase key) = evaluate source context) ∧
        ∀ tree, Formula.parse source = .ok (some tree) →
          tree.evaluate (context.insert key value) = tree.evaluate context ∧
            tree.evaluate (context.erase key) = tree.evaluate context := by
  constructor
  · intro formula left right hagree
    have hvalue := Formula.evaluate_congr hagree
    exact ⟨hvalue, Formula.isTrue_congr hvalue⟩
  · intro source key hkey context value
    have hinsert : ∀ name, key ≠ name →
        (context.insert key value).get? name = context.get? name := by
      intro name hname
      rw [Context.get?_insert, if_neg hname]
    have herase : ∀ name, key ≠ name → (context.erase key).get? name = context.get? name := by
      intro name hname
      rw [Context.get?_erase, if_neg hname]
    exact ⟨⟨evaluate_source_congr hkey hinsert, evaluate_source_congr hkey herase⟩,
      fun tree hparse => ⟨evaluate_tree_congr hparse hkey hinsert,
        evaluate_tree_congr hparse hkey herase⟩⟩

-- The Kelvin sign becomes the letter k in a source but stays itself in a context, and a hand-made
-- formula can read what no source can.
theorem evaluate_reads_variables_kelvin :
    Formula.parse "\u212a == 'x'" =
        .ok (some (.binary .equal (.variable "k") (.constant (.string "x")))) ∧
      evaluate "\u212a == 'x'" ((Context.empty.insert "k" (.string "x")).insert "\u212a" .null) =
        .ok true ∧
      (Formula.variable "\u212a").evaluate (Context.empty.insert "k" .null) =
        (Formula.variable "\u212a").evaluate .empty := by
  have hkey : ¬Formula.IsName "\u212a".toList := by
    rintro ⟨-, hchars⟩
    exact absurd (hchars '\u212a' (by simp)) (by decide)
  have hparse : Formula.parse "\u212a == 'x'" =
      .ok (some (.binary .equal (.variable "k") (.constant (.string "x")))) := by decide +kernel
  have htrue : evaluate "\u212a == 'x'" (Context.empty.insert "k" (.string "x")) = .ok true := by
    rw [evaluate, Expression.compile, hparse]
    rfl
  refine ⟨hparse, ?_, ?_⟩
  · rw [← htrue]
    exact (evaluate_reads_variables.2 _ _ hkey _ _).1.1
  · refine (evaluate_reads_variables.1 _ _ _ fun name hmem => ?_).1
    obtain rfl : name = "\u212a" := by simpa [Formula.nodes] using hmem
    rw [Context.get?_insert, if_neg (by decide)]

end Verdict

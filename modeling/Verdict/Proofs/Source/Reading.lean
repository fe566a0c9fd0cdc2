import Verdict.Proofs.Source.Account
import Verdict.Proofs.Source.Balance
import Verdict.Proofs.Source.Operand

namespace Verdict

namespace Operand

-- Reading an operand finds what tokens open with.
theorem opens_of_read {word : String} {following : List Token} {entry : Entry} {taken : Nat}
    (hread : read word.toList following = (.ok entry, taken)) :
    ∃ formula, entry = .ofFormula formula ∧
      Opens (.word word :: following) formula (following.drop taken) := by
  unfold read at hread
  split at hread
  · cases hread
  have hword : List.replicate (word.toList.takeWhile (· = '!')).length '!' ++
      word.toList.dropWhile (· = '!') = word.toList := by
    have hmarks : word.toList.takeWhile (· = '!') =
        List.replicate (word.toList.takeWhile (· = '!')).length '!' :=
      List.eq_replicate_of_mem fun c hmem => by simpa using List.mem_takeWhile_imp hmem
    rw [← hmarks, List.takeWhile_append_dropWhile]
  cases hbare : readBare (word.toList.dropWhile (· = '!')) following with
  | mk reading count =>
      simp only [hbare, Prod.mk.injEq] at hread
      obtain ⟨hread, rfl⟩ := hread
      obtain ⟨bare, rfl, hnegated⟩ := Except.bind_eq_ok_iff.mp hread
      obtain ⟨formula, rfl, hspells⟩ := spells_of_readBare hbare
      have hopens := Opens.word (word.toList.takeWhile (· = '!')).length
        (word.toList.dropWhile (· = '!')) hspells
      rw [hword, String.ofList_toList] at hopens
      refine ⟨_, ?_, hopens⟩
      rw [Entry.negated_ofFormula, Entry.checked_ofFormula] at hnegated
      split at hnegated
      · exact (Except.ok.inj hnegated).symm
      · cases hnegated

variable {tokens rest others : List Token} {formula other : Formula}

-- Tokens open with one operand at most.
theorem Opens.unique (h : Opens tokens formula rest) (hother : Opens tokens other others) :
    formula = other ∧ rest = others := by
  cases h with
  | bool value =>
      cases hother
      exact ⟨rfl, rfl⟩
  | @word marks text following bare taken hspells =>
      generalize hword : String.ofList (List.replicate marks '!' ++ text) = word at hother
      cases hother with
      | @word otherMarks otherText _ otherBare otherTaken hotherSpells =>
          obtain ⟨c, more, rfl, hc⟩ := hspells.exists_cons
          obtain ⟨d, others, rfl, hd⟩ := hotherSpells.exists_cons
          have hfirst := takeWhile_marks marks more (c := c) (by rintro rfl; exact hc (by decide))
          have hsecond := takeWhile_marks otherMarks others (c := d)
            (by rintro rfl; exact hd (by decide))
          have hlists := congrArg String.toList hword
          simp only [String.toList_ofList] at hlists
          rw [hlists] at hfirst
          have hmarks : marks = otherMarks := by
            simpa using congrArg List.length (hfirst.1.symm.trans hsecond.1)
          have htext : c :: more = d :: others := hfirst.2.symm.trans hsecond.2
          rw [← htext] at hotherSpells
          have hread := (readBare_of_spells hspells).symm.trans (readBare_of_spells hotherSpells)
          simp only [Prod.mk.injEq, Except.ok.injEq, Entry.ofFormula, Entry.mk.injEq] at hread
          obtain ⟨⟨rfl, -⟩, rfl⟩ := hread
          rw [hmarks]
          exact ⟨rfl, rfl⟩

theorem Opens.suffix (h : Opens tokens formula rest) : rest <:+ tokens := by
  cases h with
  | bool value => exact List.suffix_cons _ _
  | word marks text hspells => exact (List.drop_suffix _ _).trans (List.suffix_cons _ _)

theorem Spells.operators_eq_nil {following : List Token} {text : List Char} {taken : Nat}
    (h : Spells following text formula taken) : formula.operators = [] := by
  cases h <;> rfl

theorem Opens.operators_eq_nil (h : Opens tokens formula rest) : formula.operators = [] := by
  cases h with
  | bool value => rfl
  | word marks text hspells => rw [Formula.operators_repeat_not, hspells.operators_eq_nil]

end Operand

namespace Segment

theorem opens_of_ofTokens {tokens : List Token} {entry : Entry} {segments : List Segment}
    (hsegments : ofTokens tokens = .operand (.ok entry) :: segments) :
    ∃ formula rest, Operand.Opens tokens formula rest ∧ entry = .ofFormula formula ∧
      segments = ofTokens rest := by
  cases tokens with
  | nil => cases hsegments
  | cons token tokens =>
      cases token with
      | bool value =>
          cases hsegments
          exact ⟨_, _, .bool value tokens, rfl, rfl⟩
      | operator op => cases hsegments
      | word text =>
          cases hread : Operand.read text.toList tokens with
          | mk reading taken =>
              rw [ofTokens_word text hread] at hsegments
              cases hsegments
              obtain ⟨formula, hentry, hopens⟩ := Operand.opens_of_read hread
              exact ⟨formula, _, hopens, hentry, rfl⟩

theorem ofTokens_eq_operator {tokens : List Token} {op : Operator} {segments : List Segment}
    (hsegments : ofTokens tokens = .operator op :: segments) :
    ∃ rest, tokens = .operator op :: rest ∧ segments = ofTokens rest := by
  cases tokens with
  | nil => cases hsegments
  | cons token tokens =>
      cases token with
      | bool value => cases hsegments
      | operator op =>
          cases hsegments
          exact ⟨tokens, rfl, rfl⟩
      | word text =>
          cases hread : Operand.read text.toList tokens with
          | mk reading taken =>
              rw [ofTokens_word text hread] at hsegments
              cases hsegments

theorem eq_nil_of_ofTokens {tokens : List Token} (hsegments : ofTokens tokens = []) :
    tokens = [] := by
  cases tokens with
  | nil => rfl
  | cons token tokens =>
      cases token with
      | bool value => cases hsegments
      | operator op => cases hsegments
      | word text =>
          rw [ofTokens_word text rfl] at hsegments
          cases hsegments

end Segment

-- The operands and the operators that tokens consist of, both from left to right.
inductive Reading : List Token → List Formula → List Operator → Prop
  | nil : Reading [] [] []
  | operand {tokens rest : List Token} {operand : Formula} {operands : List Formula}
    {operators : List Operator} (hoperand : Operand.Opens tokens operand rest)
    (hrest : Reading rest operands operators) : Reading tokens (operand :: operands) operators
  | operator (op : Operator) {rest : List Token} {operands : List Formula}
    {operators : List Operator} (hrest : Reading rest operands operators) :
    Reading (.operator op :: rest) operands (op :: operators)

namespace Reading

open Segment

variable {tokens : List Token} {operands others : List Formula}
  {operators otherOperators : List Operator}

theorem exists_of_isReadable (tokens : List Token)
    (hreadable : ∀ segment ∈ ofTokens tokens, segment.IsReadable) :
    ∃ operands operators, Reading tokens operands operators := by
  induction hsegments : ofTokens tokens generalizing tokens with
  | nil =>
      have hnil := eq_nil_of_ofTokens hsegments
      subst hnil
      exact ⟨[], [], .nil⟩
  | cons segment segments ih =>
      rw [hsegments] at hreadable
      obtain ⟨hsegment, hrest⟩ := List.forall_mem_cons.mp hreadable
      match segment with
      | .operand (.error error) => exact hsegment.elim
      | .operand (.ok entry) =>
          obtain ⟨operand, rest, hopens, -, rfl⟩ := opens_of_ofTokens hsegments
          obtain ⟨operands, operators, hreading⟩ := ih rest hrest rfl
          exact ⟨_, _, .operand hopens hreading⟩
      | .operator op =>
          obtain ⟨rest, rfl, rfl⟩ := ofTokens_eq_operator hsegments
          obtain ⟨operands, operators, hreading⟩ := ih rest hrest rfl
          exact ⟨_, _, .operator op hreading⟩

theorem unique (h : Reading tokens operands operators)
    (hother : Reading tokens others otherOperators) :
    others = operands ∧ otherOperators = operators := by
  induction h generalizing others otherOperators with
  | nil =>
      cases hother with
      | nil => exact ⟨rfl, rfl⟩
      | operand hoperand hrest => cases hoperand
  | operand hoperand hrest ih =>
      cases hother with
      | nil => cases hoperand
      | operand hopens hreading =>
          obtain ⟨rfl, rfl⟩ := hopens.unique hoperand
          obtain ⟨rfl, rfl⟩ := ih hreading
          exact ⟨rfl, rfl⟩
      | operator op hreading => cases hoperand
  | operator op hrest ih =>
      cases hother with
      | operand hopens hreading => cases hopens
      | operator op hreading =>
          obtain ⟨rfl, rfl⟩ := ih hreading
          exact ⟨rfl, rfl⟩

-- Each operand is opened somewhere among the tokens.
theorem exists_opens_of_mem (h : Reading tokens operands operators) {operand : Formula}
    (hmem : operand ∈ operands) :
    ∃ before rest, before <:+ tokens ∧ Operand.Opens before operand rest := by
  induction h with
  | nil => cases hmem
  | operand hoperand hrest ih =>
      rcases List.mem_cons.mp hmem with rfl | hmem
      · exact ⟨_, _, List.suffix_refl _, hoperand⟩
      · obtain ⟨before, rest, hsuffix, hopens⟩ := ih hmem
        exact ⟨before, rest, hsuffix.trans hoperand.suffix, hopens⟩
  | operator op hrest ih =>
      obtain ⟨before, rest, hsuffix, hopens⟩ := ih hmem
      exact ⟨before, rest, hsuffix.trans (List.suffix_cons _ _), hopens⟩

theorem isOperand (h : Reading tokens operands operators) :
    ∀ operand ∈ operands, operand.isOperand ∧ operand.operators = [] := by
  intro operand hmem
  obtain ⟨before, rest, -, hopens⟩ := h.exists_opens_of_mem hmem
  exact ⟨hopens.isOperand, hopens.operators_eq_nil⟩

theorem total_eq {M : Type} [AddCommMonoid M] (size : Formula → M) (weight : Operator → M)
    (h : Reading tokens operands operators)
    (hreadable : ∀ segment ∈ ofTokens tokens, segment.IsReadable) :
    ((ofTokens tokens).map (Segment.total size weight)).sum =
      (operands.map size).sum + (operators.map weight).sum := by
  induction h with
  | nil => simp [ofTokens, group]
  | @operand tokens rest operand operands operators hoperand hrest ih =>
      rw [hoperand.group] at hreadable ⊢
      obtain ⟨hfirst, hrest⟩ := List.forall_mem_cons.mp hreadable
      have hchecked : Entry.checked (.ofFormula operand) = .ok (.ofFormula operand) := by
        rw [Entry.checked_ofFormula] at hfirst ⊢
        split at hfirst
        · rename_i hdepth
          rw [if_pos hdepth]
        · exact hfirst.elim
      have hoperand : Segment.total size weight (.operand (.ok (.ofFormula operand))) =
          size operand := rfl
      rw [hchecked, List.map_cons, List.sum_cons, ih hrest, hoperand, List.map_cons, List.sum_cons,
        add_assoc]
  | @operator op rest operands operators hrest ih =>
      have hgroup : ofTokens (.operator op :: rest) = .operator op :: ofTokens rest := rfl
      rw [hgroup] at hreadable ⊢
      have hop : Segment.total size weight (.operator op) = weight op := rfl
      rw [List.map_cons, List.sum_cons, ih (List.forall_mem_cons.mp hreadable).2, hop,
        List.map_cons, List.sum_cons]
      ac_rfl

end Reading

-- The tokens of a formula can be read as operands and operators, and any account of formulas that
-- adds up over their parts is the same for the formula as for its tokens.
theorem Formula.exists_reading {tokens : List Token} {tree : Formula}
    (htree : ofTokens tokens = .ok (some tree)) :
    ∃ operands operators, Reading tokens operands operators ∧
      ∀ {M : Type} [AddCommMonoid M] (size : Formula → M) (weight : Operator → M),
        (∀ op left right, size (.binary op left right) = weight op + (size left + size right)) →
          size tree = (operands.map size).sum + (operators.map weight).sum := by
  have hreadable := ((Segment.ofTokens_iff_complete tokens).mp ⟨tree, htree⟩).1
  obtain ⟨operands, operators, hreading⟩ := Reading.exists_of_isReadable tokens hreadable
  refine ⟨operands, operators, hreading, fun size weight hbinary => ?_⟩
  rw [ofTokens] at htree
  split at htree
  · cases htree
  obtain ⟨formula, hformula, hsome⟩ := Except.map_eq_ok_iff.mp htree
  cases hsome
  rw [Assembly.total_ofSegments hbinary hformula, hreading.total_eq size weight hreadable]

namespace Formula

theorem sum_coe_operands {operands : List Formula}
    (hoperands : ∀ operand ∈ operands, operand.isOperand) :
    (operands.map fun operand => (operand.operands : Multiset Formula)).sum = operands := by
  induction operands with
  | nil => rfl
  | cons operand operands ih =>
      obtain ⟨hoperand, hrest⟩ := List.forall_mem_cons.mp hoperands
      rw [List.map_cons, List.sum_cons, ih hrest, operands_of_isOperand hoperand, Multiset.coe_add]
      rfl

theorem sum_coe_operators {operands : List Formula}
    (hoperands : ∀ operand ∈ operands, operand.operators = []) :
    (operands.map fun operand => (operand.operators : Multiset Operator)).sum = 0 := by
  refine List.sum_eq_zero fun part hpart => ?_
  obtain ⟨operand, hmem, rfl⟩ := List.mem_map.mp hpart
  rw [hoperands operand hmem]
  rfl

theorem sum_singleton (operators : List Operator) :
    (operators.map fun op => ({op} : Multiset Operator)).sum = operators := by
  induction operators with
  | nil => rfl
  | cons op operators ih => rw [List.map_cons, List.sum_cons, ih, Multiset.singleton_add]; rfl

-- The operands and operators of a formula are those of its tokens, in whatever order.
theorem parts_of_ofTokens {tokens : List Token} {tree : Formula}
    (htree : ofTokens tokens = .ok (some tree)) :
    ∃ operands operators, Reading tokens operands operators ∧
      (tree.operands : Multiset Formula) = operands ∧
      (tree.operators : Multiset Operator) = operators := by
  obtain ⟨operands, operators, hreading, haccount⟩ := exists_reading htree
  have hplain := hreading.isOperand
  have hoperands := haccount (fun formula => (formula.operands : Multiset Formula)) (fun _ => 0)
    coe_operands_binary
  have hoperators := haccount (fun formula => (formula.operators : Multiset Operator))
    (fun op => {op}) coe_operators_binary
  refine ⟨operands, operators, hreading, ?_, ?_⟩
  · rw [hoperands, sum_coe_operands fun operand hmem => (hplain operand hmem).1]
    simp
  · rw [hoperators, sum_coe_operators fun operand hmem => (hplain operand hmem).2, sum_singleton,
      zero_add]

-- A source that denotes a formula can be read in one way as operands and operators. The formula
-- consists of these operands and operators, each as often as it is read, and of no others; there
-- is one more operand than operators. They need not come by turns in the source.
theorem parse_keeps_parts {source : String} {tree : Formula}
    (hparse : parse source = .ok (some tree)) :
    ∃ tokens operands operators, Token.scan source = .ok tokens ∧
      Reading tokens operands operators ∧
      (∀ others otherOperators, Reading tokens others otherOperators →
        others = operands ∧ otherOperators = operators) ∧
      (tree.operands : Multiset Formula) = operands ∧
      (tree.operators : Multiset Operator) = operators ∧
      operands.length = operators.length + 1 := by
  obtain ⟨tokens, hscan, htree⟩ := exists_scan_of_parse hparse
  obtain ⟨operands, operators, hreading, hoperands, hoperators⟩ := parts_of_ofTokens htree
  refine ⟨tokens, operands, operators, hscan, hreading, fun _ _ hother => hreading.unique hother,
    hoperands, hoperators, ?_⟩
  have hplain : ∀ operand ∈ tree.operands, operand.operators = [] := by
    intro operand hmem
    have hread : operand ∈ operands := (Multiset.coe_eq_coe.mp hoperands).mem_iff.mp hmem
    exact (hreading.isOperand operand hread).2
  have hcount := length_operands hplain
  have hlength := (Multiset.coe_eq_coe.mp hoperands).length_eq
  have hops := (Multiset.coe_eq_coe.mp hoperators).length_eq
  omega

-- Here two operands, and then two operators, stand next to each other.
theorem parse_keeps_parts_crossed :
    parse "!x 'a  b' == != 'a  b'" =
        .ok (some (.binary .equal (.not (.variable "x"))
          (.binary .notEqual (.constant (.string "a b")) (.constant (.string "a b"))))) ∧
      ∃ operands operators,
        Reading [.word "!x", .word "'a", .word "b'", .operator .equal, .operator .notEqual,
          .word "'a", .word "b'"] operands operators ∧
        [.not (.variable "x"), .constant (.string "a b"), .constant (.string "a b")].Perm
          operands ∧
        [.equal, .notEqual].Perm operators ∧
        operands.length = operators.length + 1 := by
  have hparse : parse "!x 'a  b' == != 'a  b'" =
      .ok (some (.binary .equal (.not (.variable "x"))
        (.binary .notEqual (.constant (.string "a b")) (.constant (.string "a b"))))) := rfl
  have hscan : Token.scan "!x 'a  b' == != 'a  b'" =
      .ok [.word "!x", .word "'a", .word "b'", .operator .equal, .operator .notEqual,
        .word "'a", .word "b'"] := rfl
  obtain ⟨tokens, operands, operators, htokens, hreading, -, hoperands, hoperators, hlength⟩ :=
    parse_keeps_parts hparse
  obtain rfl := Except.ok.inj (hscan.symm.trans htokens)
  exact ⟨hparse, operands, operators, hreading, Multiset.coe_eq_coe.mp hoperands,
    Multiset.coe_eq_coe.mp hoperators, hlength⟩

end Formula

end Verdict

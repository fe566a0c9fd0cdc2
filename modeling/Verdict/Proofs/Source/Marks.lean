import Mathlib.Algebra.Ring.Parity
import Verdict.Proofs.Evaluation.Scan
import Verdict.Proofs.Source.Reading
import Verdict.Proofs.Source.RoundTrip

namespace Verdict

namespace Token

-- A source behind a run of exclamation marks.
def marked (marks : Nat) (source : String) : String :=
  String.ofList (List.replicate marks '!' ++ source.toList)

theorem toLower_marked (marks : Nat) (text : List Char) :
    Text.toLower (List.replicate marks '!' ++ text) =
      List.replicate marks '!' ++ Text.toLower text := by
  have hdivider : Text.IsDivider '!' := by constructor <;> decide +kernel
  exact Text.toLower_replicate_append hdivider (by decide +kernel) (by decide) marks text

-- Where no space comes first, the marks only make the first lexeme longer.
theorem exists_lexemes_marked {text : List Char} (hne : text ≠ []) (hspace : text.head? ≠ some ' ') :
    ∃ first more, ∀ marks,
      lexemes (List.replicate marks '!' ++ text) = (List.replicate marks '!' ++ first) :: more := by
  obtain ⟨first, pieces, hsplit⟩ := List.exists_cons_of_ne_nil (List.splitOn_ne_nil ' ' text)
  have hfirst : first ≠ [] := by
    rintro rfl
    have hjoin : [' '].intercalate (text.splitOn ' ') = text := List.intercalate_splitOn ' '
    rw [hsplit] at hjoin
    cases pieces with
    | nil => exact hne hjoin.symm
    | cons piece pieces =>
        rw [← hjoin] at hspace
        exact hspace rfl
  refine ⟨first, pieces.filter (· ≠ []), fun marks => ?_⟩
  have hmarks : ' ' ∉ List.replicate marks '!' := fun hmem =>
    absurd (List.eq_of_mem_replicate hmem) (by decide)
  rw [lexemes, Text.splitOn_append_of_notMem _ hmarks hsplit]
  exact List.filter_cons_of_pos (by simp [hfirst])

theorem exists_scan_marked {source : String} (hne : source ≠ "")
    (hspace : source.toList.head? ≠ some ' ') :
    ∃ lexeme following, ∀ marks, scan (marked marks source) =
      .ok (ofLexeme (List.replicate marks '!' ++ lexeme) :: following) := by
  have htext : source.toList ≠ [] := fun hnil => hne (String.toList_eq_nil_iff.mp hnil)
  obtain ⟨first, more, hlexemes⟩ := exists_lexemes_marked htext hspace
  refine ⟨Text.toLower first, (more.map Text.toLower).map ofLexeme, fun marks => ?_⟩
  have hmarked : marked marks source ≠ "" := by
    rw [marked, ne_eq, String.ofList_eq_empty_iff]
    simp [htext]
  rw [scan_of_ne_empty hmarked, marked, String.toList_ofList, lexemes_toLower, hlexemes,
    List.map_cons, toLower_marked, List.map_cons]

theorem marked_zero (source : String) : marked 0 source = source := String.ofList_toList

end Token

theorem Formula.repeat_not_eq_iterate (times : Nat) (formula : Formula) :
    Nat.repeat Formula.not times formula = Formula.not^[times] formula := by
  induction times with
  | zero => rfl
  | succ times ih => rw [Nat.repeat, ih, Function.iterate_succ_apply']

namespace Operand

variable {lexeme : List Char} {following rest : List Token} {formula : Formula}

-- An operand that a lexeme opens with is spelled by it behind marks of its own.
theorem Opens.exists_spells (h : Opens (Token.ofLexeme lexeme :: following) formula rest) :
    ∃ marks text bare taken, lexeme = List.replicate marks '!' ++ text ∧
      Spells following text bare taken ∧ formula = Nat.repeat Formula.not marks bare ∧
      rest = following.drop taken := by
  have htext := congrArg String.toList (Token.text_ofLexeme lexeme)
  rw [String.toList_ofList] at htext
  generalize Token.ofLexeme lexeme = token at h htext
  cases h with
  | bool value => exact ⟨0, _, _, 0, htext.symm, .boolean value, rfl, rfl⟩
  | word marks text hspells =>
      rw [Token.text, String.toList_ofList] at htext
      exact ⟨marks, text, _, _, htext.symm, hspells, rfl, rfl⟩

-- Marks in front of an operand negate it as those of its own do.
theorem Opens.marked (h : Opens (Token.ofLexeme lexeme :: following) formula rest) (marks : Nat) :
    Opens (Token.ofLexeme (List.replicate marks '!' ++ lexeme) :: following)
      (Nat.repeat Formula.not marks formula) rest := by
  obtain ⟨own, text, bare, taken, rfl, hspells, rfl, rfl⟩ := h.exists_spells
  have hopens := opens_of_spells hspells (marks + own)
  rwa [Formula.repeat_not_eq_iterate, Function.iterate_add_apply, ← Formula.repeat_not_eq_iterate,
    ← Formula.repeat_not_eq_iterate, List.replicate_add, List.append_assoc] at hopens

end Operand

namespace Formula

open Token (marked)

variable {source : String} {tokens : List Token} {operand : Formula}

-- A formula that is one operand opens all of its tokens.
theorem opens_of_ofTokens (hoperand : operand.isOperand)
    (htree : ofTokens tokens = .ok (some operand)) : Operand.Opens tokens operand [] := by
  obtain ⟨operands, operators, hreading, hoperands, hoperators⟩ := parts_of_ofTokens htree
  rw [operands_of_isOperand hoperand] at hoperands
  obtain rfl := List.singleton_perm.mp (Multiset.coe_eq_coe.mp hoperands)
  rw [(hreading.isOperand operand List.mem_cons_self).2] at hoperators
  obtain rfl := List.nil_perm.mp (Multiset.coe_eq_coe.mp hoperators)
  cases hreading with
  | operand hopens hrest =>
      cases hrest
      exact hopens

theorem isTrue_not (context : Context) (operand : Formula) :
    (not operand).isTrue context = (operand.isTrue context).map (!·) :=
  isTrue_of_evaluate (evaluate_not context operand)

theorem involutive_map_not :
    Function.Involutive (Except.map (!·) : Except EvalError Bool → Except EvalError Bool) := by
  intro outcome
  cases outcome with
  | error error => rfl
  | ok truth => exact congrArg Except.ok (Bool.not_not truth)

-- Each negation turns a truth value around and lets an error through.
theorem isTrue_repeat_not (context : Context) (times : Nat) (operand : Formula) :
    (Nat.repeat not times operand).isTrue context =
      (Except.map (!·))^[times] (operand.isTrue context) := by
  have hstep : Function.Semiconj (isTrue context) not (Except.map (!·)) := isTrue_not context
  rw [repeat_not_eq_iterate]
  exact hstep.iterate_right times operand

theorem evaluate_of_negations {times : Nat} {marked : String}
    (hparse : parse source = .ok (some operand))
    (hmarked : parse marked = .ok (some (Nat.repeat not times operand))) (context : Context) :
    (Even times → Verdict.evaluate marked context = Verdict.evaluate source context) ∧
      (Odd times →
        Verdict.evaluate marked context = (Verdict.evaluate source context).map (!·)) := by
  rw [evaluate_of_parse hmarked, evaluate_of_parse hparse, isTrue_repeat_not]
  constructor
  · intro heven
    rw [involutive_map_not.iterate_even heven, id]
  · intro hodd
    rw [involutive_map_not.iterate_odd hodd]
    cases operand.isTrue context <;> rfl

-- Exclamation marks in front of a source that is one operand negate the operand once each, whatever
-- it is and however many tokens it takes up, unless the result is too deep. An even number of them
-- changes no truth value, an odd number each one, and no error comes or goes.
theorem parse_marked (hspace : source.toList.head? ≠ some ' ')
    (hparse : parse source = .ok (some operand)) (hoperand : operand.isOperand) (marks : Nat) :
    parse (marked marks source) =
        (if operand.depth + marks ≤ maxDepth then .ok (some (Nat.repeat not marks operand))
        else .error .nestingTooDeep) ∧
      (operand.depth + marks ≤ maxDepth → ∀ context,
        (Even marks →
          Verdict.evaluate (marked marks source) context = Verdict.evaluate source context) ∧
        (Odd marks →
          Verdict.evaluate (marked marks source) context =
            (Verdict.evaluate source context).map (!·))) := by
  have hne : source ≠ "" := by
    rintro rfl
    cases hparse
  obtain ⟨lexeme, following, hscan⟩ := Token.exists_scan_marked hne hspace
  have htree : ofTokens (Token.ofLexeme lexeme :: following) = .ok (some operand) := by
    have hsource := hscan 0
    rw [Token.marked_zero, List.replicate_zero, List.nil_append] at hsource
    rwa [parse_of_scan hsource] at hparse
  have hchain := Chain.last ((opens_of_ofTokens hoperand htree).marked marks)
  have hmarked : parse (marked marks source) =
      if operand.depth + marks ≤ maxDepth then .ok (some (Nat.repeat not marks operand))
      else .error .nestingTooDeep := by
    rw [hchain.parse_eq (hscan marks), bracket_nil, limited, depth_repeat_not]
    split <;> rfl
  refine ⟨hmarked, fun hdepth context => ?_⟩
  rw [if_pos hdepth] at hmarked
  exact evaluate_of_negations hparse hmarked context

-- The literal has a mark of its own and takes up three tokens.
theorem parse_marked_literal :
    parse "!!!!['A  b', 1]" =
        .ok (some (.not (.not (.not (.not (.constant (.array [.string "a b", .number "1"]))))))) ∧
      parse (marked 255 "!['A  b', 1]") = .error .nestingTooDeep ∧
      Verdict.evaluate "!!!!X" .empty = .ok false := by
  have hliteral : parse "!['A  b', 1]" =
      .ok (some (.not (.constant (.array [.string "a b", .number "1"])))) := by decide +kernel
  have hname : parse "!X" = .ok (some (.not (.variable "x"))) := by decide +kernel
  have hmarks (marks : Nat) := (parse_marked (by decide) hliteral rfl marks).1
  have hvalues := (parse_marked (by decide) hname rfl 3).2 (by decide) .empty
  exact ⟨hmarks 3, hmarks 255, hvalues.2 (by decide)⟩

end Formula

end Verdict

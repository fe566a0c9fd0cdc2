import Mathlib.Data.String.Basic
import Verdict.Proofs.Evaluation.Equality
import Verdict.Proofs.Number.Order

namespace Verdict

namespace Constant

-- The operators that ask which of two constants is the less.
def orderings : List Operator := [.less, .lessEqual, .greater, .greaterEqual]

-- The pairs of constants that have an order: two numbers and two strings.
def IsOrderedPair : Constant → Constant → Prop
  | .number _, .number _ => True
  | .string _, .string _ => True
  | _, _ => False

-- The numbers of a text's characters.
def codes (text : String) : List Nat := text.toList.map Char.toNat

-- Two constants compare as two members of a linear order.
structure ComparesAs {α : Type} [LinearOrder α] (left right : Constant) (x y : α) : Prop where
  lessThan_eq : left.lessThan right = .ok (decide (x < y))
  equals_eq : left.equals right = .ok (decide (x = y))

-- What the operators say of two constants that have an order: of less, equal and greater one
-- holds, and each of the others says the same as these.
structure Ordered (left right : Constant) : Prop where
  decided : ∀ op ∈ .equal :: orderings, ∃ truth, op.apply left right = .ok truth
  trichotomy : ∃! op : Operator,
    op ∈ [.less, .equal, .greater] ∧ op.apply left right = .ok true
  greaterThan_eq : left.greaterThan right = right.lessThan left
  greaterEqual_eq : left.greaterEqual right = right.lessEqual left
  greaterEqual_eq_not : left.greaterEqual right = (left.lessThan right).map (!·)
  lessEqual_antisymm :
    left.lessEqual right = .ok true ∧ right.lessEqual left = .ok true ↔ left.equals right = .ok true

namespace ComparesAs

variable {α : Type} [LinearOrder α] {left right : Constant} {x y : α}

theorem lessEqual_eq (h : ComparesAs left right x y) :
    left.lessEqual right = .ok (decide (x ≤ y)) := by
  rw [lessEqual, h.lessThan_eq, h.equals_eq]
  by_cases hlt : x < y
  · simp [hlt, hlt.le]
  · simp [hlt, le_iff_lt_or_eq]

theorem greaterThan_eq (h : ComparesAs left right x y) :
    left.greaterThan right = .ok (decide (y < x)) := by
  rw [greaterThan, notEquals, h.lessThan_eq, h.equals_eq]
  by_cases hlt : x < y
  · simp [hlt, hlt.le]
  · simp [hlt, lt_iff_le_and_ne, not_lt.mp hlt, eq_comm]

theorem greaterEqual_eq (h : ComparesAs left right x y) :
    left.greaterEqual right = .ok (decide (y ≤ x)) := by
  rw [greaterEqual, h.lessThan_eq]
  simp [← not_lt]

-- The laws of the operators are those of the linear order.
theorem ordered (h : ComparesAs left right x y) (hswap : ComparesAs right left y x) :
    left.Ordered right where
  decided := by
    simp only [orderings, List.forall_mem_cons, List.not_mem_nil, false_imp_iff, implies_true,
      and_true]
    exact ⟨⟨_, h.equals_eq⟩, ⟨_, h.lessThan_eq⟩, ⟨_, h.lessEqual_eq⟩, ⟨_, h.greaterThan_eq⟩,
      ⟨_, h.greaterEqual_eq⟩⟩
  trichotomy := by
    have hless : Operator.less.apply left right = .ok (decide (x < y)) := h.lessThan_eq
    have hequal : Operator.equal.apply left right = .ok (decide (x = y)) := h.equals_eq
    have hgreater : Operator.greater.apply left right = .ok (decide (y < x)) := h.greaterThan_eq
    rcases lt_trichotomy x y with hlt | rfl | hgt
    · refine ⟨.less, by simp [hless, hlt], ?_⟩
      simp [hequal, hgreater, hlt.ne, hlt.le]
    · refine ⟨.equal, by simp [hequal], ?_⟩
      simp [hless, hgreater]
    · refine ⟨.greater, by simp [hgreater, hgt], ?_⟩
      simp [hless, hequal, hgt.ne', hgt.le]
  greaterThan_eq := h.greaterThan_eq.trans hswap.lessThan_eq.symm
  greaterEqual_eq := h.greaterEqual_eq.trans hswap.lessEqual_eq.symm
  greaterEqual_eq_not := by
    rw [h.greaterEqual_eq, h.lessThan_eq]
    simp [← not_lt]
  lessEqual_antisymm := by
    rw [h.lessEqual_eq, hswap.lessEqual_eq, h.equals_eq]
    simp only [Except.ok.injEq, decide_eq_true_eq]
    exact le_antisymm_iff.symm

end ComparesAs

theorem comparesAs_number {left right : String} {leftValue rightValue : Binary64}
    (hleft : readNumber left = .ok leftValue) (hright : readNumber right = .ok rightValue) :
    ComparesAs (.number left) (.number right) leftValue.place rightValue.place where
  lessThan_eq := by
    rw [lessThan, hleft, hright]
    rfl
  equals_eq := equals_number hleft hright

theorem comparesAs_string (left right : String) :
    ComparesAs (.string left) (.string right) left right where
  lessThan_eq := by rw [lessThan]
  equals_eq := by rw [equals]

theorem ordered_of_isReadable {left right : Constant} (hpair : left.IsOrderedPair right)
    (hleft : left.IsReadable) (hright : right.IsReadable) : left.Ordered right := by
  unfold IsOrderedPair at hpair
  split at hpair
  · obtain ⟨leftValue, hleftValue⟩ := exists_readNumber_of_isReadable hleft
    obtain ⟨rightValue, hrightValue⟩ := exists_readNumber_of_isReadable hright
    exact (comparesAs_number hleftValue hrightValue).ordered
      (comparesAs_number hrightValue hleftValue)
  · exact (comparesAs_string _ _).ordered (comparesAs_string _ _)
  · exact hpair.elim

theorem lessThan_trans {first second third : Constant} (h : first.lessThan second = .ok true)
    (h' : second.lessThan third = .ok true) : first.lessThan third = .ok true := by
  cases first with
  | number first =>
      cases second with
      | number second =>
          cases third with
          | number third =>
              rw [lessThan] at h h'
              obtain ⟨firstValue, hfirst, h⟩ := Except.bind_eq_ok_iff.mp h
              obtain ⟨secondValue, hsecond, h⟩ := Except.bind_eq_ok_iff.mp h
              obtain ⟨_, hagain, h'⟩ := Except.bind_eq_ok_iff.mp h'
              obtain ⟨thirdValue, hthird, h'⟩ := Except.bind_eq_ok_iff.mp h'
              cases hsecond.symm.trans hagain
              have hlt := of_decide_eq_true (Except.ok.inj h)
              have hlt' := of_decide_eq_true (Except.ok.inj h')
              rw [(comparesAs_number hfirst hthird).lessThan_eq, decide_eq_true (hlt.trans hlt')]
          | _ => simp [lessThan] at h'
      | _ => simp [lessThan] at h
  | string first =>
      cases second with
      | string second =>
          cases third with
          | string third =>
              simp only [lessThan, Except.ok.injEq, decide_eq_true_eq] at h h' ⊢
              exact lt_trans h h'
          | _ => simp [lessThan] at h'
      | _ => simp [lessThan] at h
  | _ => simp [lessThan] at h

-- All four operators compare for less first, and an error of that is theirs.
theorem orderings_of_lessThan_error {left right : Constant} {error : EvalError}
    (herror : left.lessThan right = .error error) {op : Operator} (hop : op ∈ orderings) :
    op.apply left right = .error error := by
  simp only [orderings, List.mem_cons, List.not_mem_nil, or_false] at hop
  rcases hop with rfl | rfl | rfl | rfl
  · exact herror
  · simp only [Operator.apply, lessEqual, herror]
    rfl
  · simp only [Operator.apply, greaterThan, herror]
    rfl
  · simp only [Operator.apply, greaterEqual, herror]
    rfl

theorem lessThan_of_not_isOrderedPair {left right : Constant} (hpair : ¬left.IsOrderedPair right) :
    left.lessThan right = .error .typesMismatch := by
  unfold lessThan
  split
  · exact absurd trivial hpair
  · exact absurd trivial hpair
  · rfl

theorem lessThan_of_error {left right : String} {error : EvalError}
    (herror : readNumber left = .error error ∨
      (∃ value, readNumber left = .ok value) ∧ readNumber right = .error error) :
    (number left).lessThan (.number right) = .error error := by
  rw [lessThan]
  rcases herror with hleft | ⟨⟨value, hleft⟩, hright⟩
  · rw [hleft]
    rfl
  · rw [hleft, hright]
    rfl

theorem lt_iff_codes_lt (left right : String) : left < right ↔ codes left < codes right := by
  have hmono : ∀ {first second : List Char}, first < second →
      first.map Char.toNat < second.map Char.toNat := fun h => List.map_lt (fun _ _ h => h) h
  rw [String.lt_iff_toList_lt, codes, codes]
  refine ⟨hmono, fun h => ?_⟩
  rcases lt_trichotomy left.toList right.toList with hlt | heq | hgt
  · exact hlt
  · rw [heq] at h
    exact absurd h (lt_irrefl _)
  · exact absurd h (hmono hgt).asymm

theorem not_isReadable_of_read? {text : String}
    (hread : Binary64.read? (Text.trim text.toList) = none) : ¬(number text).IsReadable := by
  intro hreadable
  obtain ⟨value, hvalue⟩ := exists_readNumber_of_isReadable hreadable
  rw [readNumber, hread] at hvalue
  cases hvalue

theorem readNumber_of_not_isReadable {text : String} (h : ¬(number text).IsReadable) :
    readNumber text = .error (.invalidNumber text) := by
  have hnone : ∀ value, readNumber text ≠ .ok value := fun value hvalue =>
    h (by simpa [IsReadable, numbers] using ⟨value, hvalue⟩)
  unfold readNumber at hnone ⊢
  split
  · rename_i value hvalue
    rw [hvalue] at hnone
    exact absurd rfl (hnone value)
  · rfl

theorem orderings_of_not_isReadable {left right : String} {op : Operator} (hop : op ∈ orderings) :
    (¬(number left).IsReadable →
        op.apply (.number left) (.number right) = .error (.invalidNumber left)) ∧
      ((number left).IsReadable → ¬(number right).IsReadable →
        op.apply (.number left) (.number right) = .error (.invalidNumber right)) := by
  constructor
  · intro hleft
    have herror := readNumber_of_not_isReadable hleft
    exact orderings_of_lessThan_error (lessThan_of_error (.inl herror)) hop
  · intro hleft hright
    have hvalue := exists_readNumber_of_isReadable hleft
    have herror := readNumber_of_not_isReadable hright
    exact orderings_of_lessThan_error (lessThan_of_error (.inr ⟨hvalue, herror⟩)) hop

-- Numbers that can be read are in one total order, and strings in another; the operators agree on
-- both. Numbers are ordered by value, with NaN last and the two zeros equal, and strings by the
-- codes of their characters. Constants of other kinds have no order, and two numbers have none if
-- one cannot be read.
theorem ordering_is_total :
    (∀ left right : Constant, left.IsOrderedPair right → left.IsReadable → right.IsReadable →
        left.Ordered right) ∧
      (∀ first second third : Constant, first.lessThan second = .ok true →
        second.lessThan third = .ok true → first.lessThan third = .ok true) ∧
      (∀ left right : Constant, ¬left.IsOrderedPair right → ∀ op ∈ orderings,
        op.apply left right = .error .typesMismatch) ∧
      (∀ left right : String, ∀ op ∈ orderings,
        (¬(number left).IsReadable →
            op.apply (.number left) (.number right) = .error (.invalidNumber left)) ∧
          ((number left).IsReadable → ¬(number right).IsReadable →
            op.apply (.number left) (.number right) = .error (.invalidNumber right))) ∧
      (∀ (left right : String) (leftValue rightValue : Binary64),
        readNumber left = .ok leftValue → readNumber right = .ok rightValue →
          ((number left).lessThan (.number right) = .ok true ↔ leftValue.Precedes rightValue) ∧
            ((number left).equals (.number right) = .ok true ↔
              leftValue = rightValue ∨ leftValue.isZero ∧ rightValue.isZero)) ∧
      ∀ left right : String,
        (string left).lessThan (.string right) = .ok true ↔ codes left < codes right := by
  refine ⟨fun _ _ => ordered_of_isReadable, fun _ _ _ => lessThan_trans, ?_, ?_, ?_, ?_⟩
  · intro left right hpair op hop
    exact orderings_of_lessThan_error (lessThan_of_not_isOrderedPair hpair) hop
  · intro left right op hop
    exact orderings_of_not_isReadable hop
  · intro left right leftValue rightValue hleft hright
    have hcompares := comparesAs_number hleft hright
    rw [hcompares.lessThan_eq, hcompares.equals_eq, Except.ok.injEq, Except.ok.injEq,
      decide_eq_true_iff, decide_eq_true_iff]
    exact ⟨Binary64.place_lt_place_iff, Binary64.place_eq_place_iff⟩
  · intro left right
    rw [(comparesAs_string left right).lessThan_eq, Except.ok.injEq, decide_eq_true_iff]
    exact lt_iff_codes_lt left right

-- The two zeros, infinity before NaN, an array next to nothing, a number that cannot be read, and
-- two characters that come the other way round in UTF-16.
theorem ordering_is_total_extremes :
    (number "-0").Ordered (.number "0") ∧
      (number "-0").lessThan (.number "nan") = .ok true ∧
      Operator.greater.apply (.array [.number "nan"]) .nil = .error .typesMismatch ∧
      Operator.lessEqual.apply (.number "1") (.number "x") = .error (.invalidNumber "x") ∧
      (string "\uffff").lessThan (.string "😀") = .ok true := by
  obtain ⟨hordered, htrans, hkinds, hunreadable, hvalues, hcodes⟩ := ordering_is_total
  have hminus : readNumber "-0" = .ok (.finite ⟨true, 0, by decide⟩) :=
    readNumber_of_read? (by decide +kernel)
  have hzero : readNumber "0" = .ok (.finite ⟨false, 0, by decide⟩) :=
    readNumber_of_read? (by decide +kernel)
  have hone : readNumber "1" = .ok (.finite ⟨false, 0x3ff0000000000000, by decide⟩) :=
    readNumber_of_read? (by decide +kernel)
  have hinfinity : readNumber "inf" = .ok (.infinity false) :=
    readNumber_of_read? (by decide +kernel)
  have hnan : readNumber "nan" = .ok .nan := readNumber_of_read? (by decide +kernel)
  have hx : ¬(number "x").IsReadable := not_isReadable_of_read? (by decide +kernel)
  refine ⟨hordered _ _ trivial ?_ ?_, htrans _ (.number "inf") _ ?_ ?_, ?_, ?_, ?_⟩
  · simp [IsReadable, numbers, hminus]
  · simp [IsReadable, numbers, hzero]
  · exact (hvalues _ _ _ _ hminus hinfinity).1.mpr rfl
  · exact (hvalues _ _ _ _ hinfinity hnan).1.mpr trivial
  · exact hkinds _ _ id _ (by simp [orderings])
  · refine (hunreadable _ _ _ (by simp [orderings])).2 ?_ hx
    simp [IsReadable, numbers, hone]
  · exact (hcodes _ _).mpr (by decide +kernel)

-- Two numbers are of one kind also where a text is none, and then the error names that text.
theorem less_unreadable_number :
    ¬(number "x").IsReadable ∧
      Operator.less.apply (.number "x") (.number "1") = .error (.invalidNumber "x") ∧
      ¬∀ left right : Constant,
        ¬(left.IsOrderedPair right ∧ left.IsReadable ∧ right.IsReadable) →
          ∀ op ∈ orderings, op.apply left right = .error .typesMismatch := by
  have hunreadable : ¬(number "x").IsReadable := not_isReadable_of_read? (by decide +kernel)
  have herror : Operator.less.apply (.number "x") (.number "1") = .error (.invalidNumber "x") :=
    (orderings_of_not_isReadable List.mem_cons_self).1 hunreadable
  refine ⟨hunreadable, herror, fun hall => ?_⟩
  have hmismatch := hall (.number "x") (.number "1") (fun h => hunreadable h.2.1) .less
    List.mem_cons_self
  rw [herror] at hmismatch
  cases hmismatch

end Constant

end Verdict

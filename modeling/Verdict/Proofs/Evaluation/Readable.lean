import Verdict.Proofs.Evaluation.Scan
import Verdict.Proofs.Formula.WellFormed
import Verdict.Proofs.Number.Layout

namespace Verdict

namespace HostValue

-- Whether no constant stands for a value.
def isUnsupported : HostValue → Bool
  | .null | .bool _ | .object _ => true
  | .number _ | .string _ | .array _ => false

mutual

-- The values in nested arrays that are no arrays themselves, depth first and from left to right.
def leaves : HostValue → List HostValue
  | .array items => itemLeaves items
  | value => [value]

def itemLeaves : List HostValue → List HostValue
  | [] => []
  | item :: items => leaves item ++ itemLeaves items

end

def firstUnsupported? (value : HostValue) : Option HostValue := value.leaves.find? isUnsupported

end HostValue

namespace Constant

mutual

-- The texts of the numbers of a constant.
def numbers : Constant → List String
  | .number text => [text]
  | .array items => itemNumbers items
  | .bool _ | .nil | .string _ => []

def itemNumbers : List Constant → List String
  | [] => []
  | item :: items => numbers item ++ itemNumbers items

end

-- Whether no number of a constant stands in the way when it is compared.
def IsReadable (constant : Constant) : Prop :=
  ∀ text ∈ constant.numbers, ∃ value, readNumber text = .ok value

theorem isReadable_array {items : List Constant} :
    IsReadable (.array items) ↔ ∀ text ∈ itemNumbers items, ∃ value, readNumber text = .ok value := by
  rw [IsReadable, numbers]

theorem exists_readNumber {text : String} {numeral : Numeral}
    (hchars : ∀ c ∈ text.toList, Numeral.isNumeralChar c)
    (hread : Numeral.read? text.toList = some numeral) : ∃ value, readNumber text = .ok value := by
  refine ⟨Binary64.ofNumeral numeral, ?_⟩
  rw [readNumber, Numeral.trim_eq_self hchars, Binary64.read?, hread]
  rfl

theorem exists_readNumber_of_isLayout {text : List Char} (h : Numeral.IsLayout text) :
    ∃ value, readNumber (String.ofList text) = .ok value := by
  obtain ⟨⟨numeral, hread⟩, hchars⟩ := Numeral.exists_read?_of_isLayout h
  rw [← String.toList_ofList (l := text)] at hread hchars
  exact exists_readNumber hchars hread

mutual

-- The constant of a host value can be compared. There is none just if some part of the value has
-- none, and then the first such part is reported.
theorem ofHost_cases (value : HostValue) :
    (∃ constant, ofHost value = .ok constant ∧ constant.IsReadable ∧
      value.firstUnsupported? = none) ∨
    ∃ part, ofHost value = .error (.unsupportedValue part) ∧ value.firstUnsupported? = some part := by
  cases value with
  | string text => exact .inl ⟨_, rfl, by simp [IsReadable, numbers], rfl⟩
  | number value =>
      have hrender := exists_readNumber_of_isLayout value.isLayout_render
      exact .inl ⟨_, rfl, by simpa [IsReadable, numbers] using hrender, rfl⟩
  | array items =>
      rcases ofHostItems_cases items with ⟨constants, hitems, hreadable, hnone⟩ | ⟨part, hitems, hpart⟩
      · refine .inl ⟨.array constants, ?_, isReadable_array.mpr hreadable, hnone⟩
        rw [ofHost, hitems]
        rfl
      · refine .inr ⟨part, ?_, hpart⟩
        rw [ofHost, hitems]
        rfl
  | _ => exact .inr ⟨_, rfl, rfl⟩

theorem ofHostItems_cases (items : List HostValue) :
    (∃ constants, ofHostItems items = .ok constants ∧
      (∀ text ∈ itemNumbers constants, ∃ value, readNumber text = .ok value) ∧
      (HostValue.itemLeaves items).find? HostValue.isUnsupported = none) ∨
    ∃ part, ofHostItems items = .error (.unsupportedValue part) ∧
      (HostValue.itemLeaves items).find? HostValue.isUnsupported = some part := by
  cases items with
  | nil => exact .inl ⟨[], rfl, by simp [itemNumbers], rfl⟩
  | cons item items =>
      rw [HostValue.itemLeaves, List.find?_append, ofHostItems]
      rcases ofHost_cases item with ⟨constant, hitem, hreadable, hnone⟩ | ⟨part, hitem, hpart⟩
      · rw [HostValue.firstUnsupported?] at hnone
        rw [hitem, hnone]
        rcases ofHostItems_cases items with ⟨constants, hitems, hmore, hrest⟩ | ⟨part, hitems, hpart⟩
        · refine .inl ⟨constant :: constants, by rw [hitems]; rfl, ?_, hrest⟩
          rw [itemNumbers]
          exact List.forall_mem_append.mpr ⟨hreadable, hmore⟩
        · exact .inr ⟨part, by rw [hitems]; rfl, hpart⟩
      · rw [HostValue.firstUnsupported?] at hpart
        exact .inr ⟨part, by rw [hitem]; rfl, by rw [hpart]; rfl⟩

end

theorem isReadable_of_ofHost {value : HostValue} {constant : Constant}
    (hvalue : ofHost value = .ok constant) : constant.IsReadable := by
  rcases ofHost_cases value with ⟨other, hother, hreadable, -⟩ | ⟨_, herror, -⟩
  · cases hvalue.symm.trans hother
    exact hreadable
  · cases hvalue.symm.trans herror

theorem exists_unsupported_of_ofHost {value : HostValue} {error : EvalError}
    (herror : ofHost value = .error error) :
    ∃ part, error = .unsupportedValue part ∧ value.firstUnsupported? = some part := by
  rcases ofHost_cases value with ⟨_, hvalue, -, -⟩ | ⟨part, hother, hpart⟩
  · cases herror.symm.trans hvalue
  · cases herror.symm.trans hother
    exact ⟨part, rfl, hpart⟩

theorem isReadable_of_isNumeral {text : String} (h : IsNumeral text.toList) :
    IsReadable (.number text) := by
  obtain ⟨value, hvalue⟩ := h.finite
  obtain ⟨numeral, hnumeral, -⟩ := Option.map_eq_some_iff.mp hvalue
  simpa [IsReadable, numbers] using exists_readNumber h.isNumeralChar hnumeral

theorem isReadable_of_isItem {item : Constant} (h : item.IsItem) : item.IsReadable := by
  cases item with
  | number text => exact isReadable_of_isNumeral h
  | string text => simp [IsReadable, numbers]
  | _ => exact h.elim

theorem isReadable_of_isLiteral {value : Constant} (h : value.IsLiteral) : value.IsReadable := by
  cases value with
  | number text => exact isReadable_of_isNumeral h
  | array items =>
      rw [IsLiteral] at h
      rw [isReadable_array]
      induction items with
      | nil => simp [itemNumbers]
      | cons item items ih =>
          obtain ⟨hitem, hmore⟩ := List.forall_mem_cons.mp h
          exact List.forall_mem_append.mpr ⟨isReadable_of_isItem hitem, ih hmore⟩
  | _ => simp [IsReadable, numbers]

section Comparison

variable {left right : Constant} {error : EvalError}

theorem exists_readNumber_of_isReadable {text : String} (h : IsReadable (.number text)) :
    ∃ value, readNumber text = .ok value := h text (by simp [numbers])

mutual

-- Constants whose numbers can be read are equal or not, unless they are of two kinds.
theorem eq_typesMismatch_of_equals (left right : Constant) (hleft : left.IsReadable)
    (hright : right.IsReadable) (herror : left.equals right = .error error) :
    error = .typesMismatch := by
  unfold equals at herror
  split at herror
  case h_5 left right =>
      obtain ⟨leftValue, hleftValue⟩ := exists_readNumber_of_isReadable hleft
      obtain ⟨rightValue, hrightValue⟩ := exists_readNumber_of_isReadable hright
      rw [hleftValue, hrightValue] at herror
      cases herror
  case h_7 lefts rights =>
      split at herror
      · exact eq_typesMismatch_of_equalItems lefts rights hleft hright herror
      · cases herror
  case h_8 => exact (Except.error.inj herror).symm
  all_goals cases herror

theorem eq_typesMismatch_of_equalItems (lefts rights : List Constant)
    (hlefts : IsReadable (.array lefts)) (hrights : IsReadable (.array rights))
    (herror : equalItems lefts rights = .error error) : error = .typesMismatch := by
  unfold equalItems at herror
  split at herror
  · rename_i left lefts right rights
    obtain ⟨hleft, hlefts⟩ := List.forall_mem_append.mp (isReadable_array.mp hlefts)
    obtain ⟨hright, hrights⟩ := List.forall_mem_append.mp (isReadable_array.mp hrights)
    rcases Except.bind_eq_error_iff.mp herror with hfirst | ⟨equal, -, hmore⟩
    · exact eq_typesMismatch_of_equals left right hleft hright hfirst
    · split at hmore
      · exact eq_typesMismatch_of_equalItems lefts rights (isReadable_array.mpr hlefts)
          (isReadable_array.mpr hrights) hmore
      · cases hmore
  · cases herror

end

theorem eq_typesMismatch_of_lessThan (hleft : left.IsReadable) (hright : right.IsReadable)
    (herror : left.lessThan right = .error error) : error = .typesMismatch := by
  unfold lessThan at herror
  split at herror
  · obtain ⟨leftValue, hleftValue⟩ := exists_readNumber_of_isReadable hleft
    obtain ⟨rightValue, hrightValue⟩ := exists_readNumber_of_isReadable hright
    rw [hleftValue, hrightValue] at herror
    cases herror
  · cases herror
  · exact (Except.error.inj herror).symm

theorem eq_typesNotLogical_of_toBool (herror : left.toBool = .error error) :
    error = .typesNotLogical := by
  cases left with
  | bool value => cases herror
  | _ => exact (Except.error.inj herror).symm

theorem eq_typesMismatch_of_verdict (herror : left.verdict = .error error) :
    error = .typesMismatch := by
  cases left with
  | bool value => cases herror
  | nil => cases herror
  | _ => exact (Except.error.inj herror).symm

theorem eq_typesMismatch_of_notEquals (hleft : left.IsReadable) (hright : right.IsReadable)
    (herror : left.notEquals right = .error error) : error = .typesMismatch := by
  rcases Except.bind_eq_error_iff.mp herror with hequals | ⟨equal, -, hnone⟩
  · exact eq_typesMismatch_of_equals left right hleft hright hequals
  · cases hnone

-- Both logical operators ask for two booleans, all others for two constants of one kind.
theorem error_of_apply {op : Operator} (hleft : left.IsReadable) (hright : right.IsReadable)
    (herror : op.apply left right = .error error) :
    error = .typesMismatch ∨ error = .typesNotLogical ∧ op.isLogical := by
  cases op with
  | and | or =>
      rcases Except.bind_eq_error_iff.mp herror with hfirst | ⟨first, -, hmore⟩
      · exact .inr ⟨eq_typesNotLogical_of_toBool hfirst, rfl⟩
      · rcases Except.bind_eq_error_iff.mp hmore with hsecond | ⟨second, -, hnone⟩
        · exact .inr ⟨eq_typesNotLogical_of_toBool hsecond, rfl⟩
        · cases hnone
  | equal => exact .inl (eq_typesMismatch_of_equals left right hleft hright herror)
  | notEqual => exact .inl (eq_typesMismatch_of_notEquals hleft hright herror)
  | less => exact .inl (eq_typesMismatch_of_lessThan hleft hright herror)
  | greaterEqual =>
      rcases Except.bind_eq_error_iff.mp herror with hless | ⟨less, -, hnone⟩
      · exact .inl (eq_typesMismatch_of_lessThan hleft hright hless)
      · cases hnone
  | greater =>
      rcases Except.bind_eq_error_iff.mp herror with hless | ⟨less, -, hmore⟩
      · exact .inl (eq_typesMismatch_of_lessThan hleft hright hless)
      · split at hmore
        · cases hmore
        · exact .inl (eq_typesMismatch_of_notEquals hleft hright hmore)
  | lessEqual =>
      rcases Except.bind_eq_error_iff.mp herror with hless | ⟨less, -, hmore⟩
      · exact .inl (eq_typesMismatch_of_lessThan hleft hright hless)
      · split at hmore
        · cases hmore
        · exact .inl (eq_typesMismatch_of_equals left right hleft hright hmore)

end Comparison

end Constant

end Verdict

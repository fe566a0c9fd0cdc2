import Mathlib.Data.List.Lex
import Std.Data.String.ToNat
import Verdict.Proofs.Evaluation.Readable

namespace Verdict

namespace HostValue

-- The value at a place within nested arrays. A place is the list of indices on the way to it.
def part? : HostValue → List Nat → Option HostValue
  | value, [] => some value
  | .array items, index :: place => (items[index]?).bind fun item => item.part? place
  | _, _ :: _ => none

-- Whether all values at places within a value have constants.
def IsSupported (value : HostValue) : Prop :=
  ∀ place part, value.part? place = some part → part.isUnsupported = false

-- A part without a constant, before which there is no other. Depth first and from left to right,
-- places are in lexicographic order.
structure IsFirst (value : HostValue) (place : List Nat) (part : HostValue) : Prop where
  found : value.part? place = some part
  unsupported : part.isUnsupported = true
  first : ∀ other < place, ∀ before, value.part? other = some before → before.isUnsupported = false

end HostValue

namespace Constant

def part? : Constant → List Nat → Option Constant
  | constant, [] => some constant
  | .array items, index :: place => (items[index]?).bind fun item => item.part? place
  | _, _ :: _ => none

end Constant

-- What a constant keeps of a host value: strings as they are, numbers as they are written, and
-- arrays item by item.
inductive Keeps : HostValue → Constant → Prop
  | string (text : String) : Keeps (.string text) (.string text)
  | number (value : HostNumber) : Keeps (.number value) (.number (String.ofList value.render))
  | array {items : List HostValue} {constants : List Constant}
      (hitems : List.Forall₂ Keeps items constants) : Keeps (.array items) (.array constants)

namespace HostValue

variable {value item part : HostValue} {items : List HostValue} {index : Nat} {place : List Nat}

theorem part?_array_cons (items : List HostValue) (index : Nat) (place : List Nat) :
    (array items).part? (index :: place) = (items[index]?).bind fun item => item.part? place := by
  rw [part?]

theorem part?_of_getElem? (hitem : items[index]? = some item) :
    (array items).part? (index :: place) = item.part? place := by
  rw [part?_array_cons, hitem, Option.bind_some]

theorem IsFirst.unique {place place' : List Nat} {part part' : HostValue}
    (h : value.IsFirst place part) (h' : value.IsFirst place' part') : part = part' := by
  rcases lt_trichotomy place place' with hlt | rfl | hlt
  · exact absurd h.unsupported (Bool.eq_false_iff.mp (h'.first place hlt part h.found))
  · exact Option.some.inj (h.found.symm.trans h'.found)
  · exact absurd h'.unsupported (Bool.eq_false_iff.mp (h.first place' hlt part' h'.found))

theorem IsFirst.not_isSupported (h : value.IsFirst place part) : ¬value.IsSupported := fun hall =>
  absurd h.unsupported (Bool.eq_false_iff.mp (hall place part h.found))

-- Nothing comes before a whole value.
theorem isFirst_self (hvalue : value.isUnsupported = true) : value.IsFirst [] value where
  found := by rw [part?]
  unsupported := hvalue
  first := fun other hother => absurd hother (List.not_lt_nil other)

theorem isSupported_leaf (hvalue : value.isUnsupported = false)
    (hleaf : ∀ index place, value.part? (index :: place) = none) : value.IsSupported := by
  intro place part hpart
  cases place with
  | nil =>
      rw [part?] at hpart
      cases hpart
      exact hvalue
  | cons index place =>
      rw [hleaf] at hpart
      cases hpart

theorem isSupported_array (hitems : ∀ item ∈ items, item.IsSupported) :
    (array items).IsSupported := by
  intro place part hpart
  cases place with
  | nil =>
      cases hpart
      rfl
  | cons index place =>
      rw [part?_array_cons] at hpart
      obtain ⟨item, hitem, hpart⟩ := Option.bind_eq_some_iff.mp hpart
      exact hitems item (List.mem_of_getElem? hitem) place part hpart

-- In an array, the first part of an item comes first if all items before it are supported.
theorem isFirst_array (hitem : items[index]? = some item)
    (hbefore : ∀ other ∈ items.take index, other.IsSupported) (h : item.IsFirst place part) :
    (array items).IsFirst (index :: place) part where
  found := (part?_of_getElem? hitem).trans h.found
  unsupported := h.unsupported
  first := by
    intro other hother before hpart
    cases other with
    | nil =>
        cases hpart
        rfl
    | cons start rest =>
        rw [part?_array_cons] at hpart
        obtain ⟨earlier, hearlier, hpart⟩ := Option.bind_eq_some_iff.mp hpart
        rcases List.cons_lt_cons_iff.mp hother with hlt | ⟨rfl, hlt⟩
        · refine hbefore earlier (List.mem_of_getElem? (i := start) ?_) rest before hpart
          rw [List.getElem?_take_of_lt hlt, hearlier]
        · cases hitem.symm.trans hearlier
          exact h.first rest hlt before hpart

mutual

-- The first of the leaves without a constant is the first of all parts without one.
theorem firstUnsupported?_cases (value : HostValue) :
    (value.firstUnsupported? = none ∧ value.IsSupported) ∨
      ∃ place part, value.firstUnsupported? = some part ∧ value.IsFirst place part := by
  cases value with
  | array items =>
      rcases find?_itemLeaves_cases items with
        ⟨hnone, hitems⟩ | ⟨index, item, place, part, hsome, hitem, hbefore, hfirst⟩
      · exact .inl ⟨hnone, isSupported_array hitems⟩
      · exact .inr ⟨index :: place, part, hsome, isFirst_array hitem hbefore hfirst⟩
  | string text => exact .inl ⟨rfl, isSupported_leaf rfl fun _ _ => rfl⟩
  | number value => exact .inl ⟨rfl, isSupported_leaf rfl fun _ _ => rfl⟩
  | _ => exact .inr ⟨[], _, rfl, isFirst_self rfl⟩

theorem find?_itemLeaves_cases (items : List HostValue) :
    ((itemLeaves items).find? isUnsupported = none ∧ ∀ item ∈ items, item.IsSupported) ∨
      ∃ index item place part, (itemLeaves items).find? isUnsupported = some part ∧
        items[index]? = some item ∧ (∀ other ∈ items.take index, other.IsSupported) ∧
          item.IsFirst place part := by
  cases items with
  | nil => exact .inl ⟨rfl, by simp⟩
  | cons item items =>
      rw [itemLeaves, List.find?_append]
      rcases firstUnsupported?_cases item with ⟨hnone, hitem⟩ | ⟨place, part, hsome, hfirst⟩
      · rw [firstUnsupported?] at hnone
        rw [hnone, Option.none_or]
        rcases find?_itemLeaves_cases items with
          ⟨hrest, hitems⟩ | ⟨index, other, place, part, hsome, hother, hbefore, hfirst⟩
        · exact .inl ⟨hrest, List.forall_mem_cons.mpr ⟨hitem, hitems⟩⟩
        · refine .inr ⟨index + 1, other, place, part, hsome, hother, ?_, hfirst⟩
          rw [List.take_succ_cons]
          exact List.forall_mem_cons.mpr ⟨hitem, hbefore⟩
      · rw [firstUnsupported?] at hsome
        exact .inr ⟨0, item, place, part, by rw [hsome, Option.some_or], rfl, by simp, hfirst⟩

end

end HostValue

namespace Constant

variable {value : HostValue} {constant : Constant}

mutual

theorem keeps_of_ofHost (value : HostValue) (constant : Constant)
    (hvalue : ofHost value = .ok constant) : Keeps value constant := by
  cases value with
  | string text =>
      cases hvalue
      exact .string text
  | number value =>
      cases hvalue
      exact .number value
  | array items =>
      rw [ofHost] at hvalue
      obtain ⟨constants, hitems, rfl⟩ := Except.map_eq_ok_iff.mp hvalue
      exact .array (keeps_of_ofHostItems items constants hitems)
  | _ => cases hvalue

theorem keeps_of_ofHostItems (items : List HostValue) (constants : List Constant)
    (hitems : ofHostItems items = .ok constants) : List.Forall₂ Keeps items constants := by
  cases items with
  | nil =>
      cases hitems
      exact .nil
  | cons item items =>
      rw [ofHostItems] at hitems
      obtain ⟨constant, hitem, hmore⟩ := Except.bind_eq_ok_iff.mp hitems
      obtain ⟨constants, hrest, hall⟩ := Except.bind_eq_ok_iff.mp hmore
      cases hall
      exact .cons (keeps_of_ofHost item constant hitem) (keeps_of_ofHostItems items constants hrest)

end

mutual

theorem ofHost_of_keeps {value : HostValue} {constant : Constant} (h : Keeps value constant) :
    ofHost value = .ok constant := by
  cases h with
  | string text => rfl
  | number value => rfl
  | array hitems =>
      rw [ofHost, ofHostItems_of_keeps hitems]
      rfl

theorem ofHostItems_of_keeps {items : List HostValue} {constants : List Constant}
    (h : List.Forall₂ Keeps items constants) : ofHostItems items = .ok constants := by
  cases h with
  | nil => rfl
  | cons hitem hitems =>
      rw [ofHostItems, ofHost_of_keeps hitem, ofHostItems_of_keeps hitems]
      rfl

end

theorem ofHost_eq_ok_iff : ofHost value = .ok constant ↔ Keeps value constant :=
  ⟨keeps_of_ofHost value constant, ofHost_of_keeps⟩

-- Either all parts of a value have constants, or the first one that has none is the error.
theorem ofHost_part_cases (value : HostValue) :
    (∃ constant, ofHost value = .ok constant ∧ value.IsSupported) ∨
      ∃ place part, ofHost value = .error (.unsupportedValue part) ∧ value.IsFirst place part := by
  rcases ofHost_cases value with ⟨constant, hvalue, -, hnone⟩ | ⟨part, herror, hsome⟩
  · rcases value.firstUnsupported?_cases with ⟨-, hall⟩ | ⟨_, _, hother, -⟩
    · exact .inl ⟨constant, hvalue, hall⟩
    · cases hnone.symm.trans hother
  · rcases value.firstUnsupported?_cases with ⟨hother, -⟩ | ⟨place, _, hother, hfirst⟩
    · cases hsome.symm.trans hother
    · cases hsome.symm.trans hother
      exact .inr ⟨place, part, herror, hfirst⟩

theorem ofHost_eq_error_iff {error : EvalError} : ofHost value = .error error ↔
    ∃ place part, error = .unsupportedValue part ∧ value.IsFirst place part := by
  rcases ofHost_part_cases value with ⟨constant, hvalue, hall⟩ | ⟨place, part, herror, hfirst⟩
  · refine iff_of_false (fun herror => ?_) ?_
    · cases hvalue.symm.trans herror
    · rintro ⟨place, part, -, hfirst⟩
      exact hfirst.not_isSupported hall
  · constructor
    · intro hother
      cases herror.symm.trans hother
      exact ⟨place, part, rfl, hfirst⟩
    · rintro ⟨place', part', rfl, hfirst'⟩
      rw [herror, hfirst.unique hfirst']

theorem exists_ofHost_iff : (∃ constant, ofHost value = .ok constant) ↔ value.IsSupported := by
  rcases ofHost_part_cases value with ⟨constant, hvalue, hall⟩ | ⟨place, part, herror, hfirst⟩
  · exact iff_of_true ⟨constant, hvalue⟩ hall
  · refine iff_of_false ?_ hfirst.not_isSupported
    rintro ⟨constant, hvalue⟩
    cases herror.symm.trans hvalue

end Constant

-- What is at one place in a constant is kept of what is there in the host value.
theorem Keeps.exists_part {value : HostValue} {constant part : Constant} {place : List Nat}
    (h : Keeps value constant) (hpart : constant.part? place = some part) :
    ∃ original, value.part? place = some original ∧ Keeps original part := by
  induction place generalizing value constant with
  | nil =>
      rw [Constant.part?] at hpart
      cases hpart
      exact ⟨value, by rw [HostValue.part?], h⟩
  | cons index place ih =>
      cases h with
      | @array items constants hitems =>
          rw [Constant.part?] at hpart
          obtain ⟨item, hitem, hpart⟩ := Option.bind_eq_some_iff.mp hpart
          obtain ⟨hlength, hrelated⟩ := List.forall₂_iff_get.mp hitems
          obtain ⟨hindex, rfl⟩ := List.getElem?_eq_some_iff.mp hitem
          have hindex' : index < items.length := hlength ▸ hindex
          rw [HostValue.part?_of_getElem? (List.getElem?_eq_getElem hindex')]
          exact ih (hrelated index hindex' hindex) hpart
      | _ => cases hpart

-- A host value has a constant just if no null, boolean or object is anywhere in its arrays. The
-- constant keeps all of it and holds no boolean and no nil. Otherwise the error is the first value
-- that has no constant. Items are counted just where a variable is an array.
theorem cast_exact :
    (∀ value : HostValue, (∃ constant, Constant.ofHost value = .ok constant) ↔
        ∀ place part, value.part? place = some part → part.isUnsupported = false) ∧
      (∀ (value : HostValue) (constant : Constant), Constant.ofHost value = .ok constant ↔
        Keeps value constant) ∧
      (∀ (value : HostValue) (constant : Constant), Constant.ofHost value = .ok constant →
        ∀ place part, constant.part? place = some part →
          part ≠ .nil ∧ ∀ truth, part ≠ .bool truth) ∧
      (∀ (value : HostValue) (error : EvalError), Constant.ofHost value = .error error ↔
        ∃ place part, error = .unsupportedValue part ∧ value.IsFirst place part) ∧
      ∀ (context : Context) (name : String) (k : Nat),
        (Formula.count (.variable name)).evaluate context = .ok (.number k.repr) ↔
          ∃ items, (Formula.variable name).evaluate context = .ok (.array items) ∧
            items.length = k := by
  refine ⟨fun _ => Constant.exists_ofHost_iff, fun _ _ => Constant.ofHost_eq_ok_iff, ?_,
    fun _ _ => Constant.ofHost_eq_error_iff, fun context name k => ?_⟩
  · intro value constant hvalue place part hpart
    obtain ⟨original, -, hkeeps⟩ := (Constant.ofHost_eq_ok_iff.mp hvalue).exists_part hpart
    cases hkeeps <;> exact ⟨Constant.noConfusion, fun _ => Constant.noConfusion⟩
  · change context.itemCount name = _ ↔ ∃ items, context.lookup name = _ ∧ _
    rw [Context.itemCount_eq_ok_iff]
    simp only [Constant.number.injEq, Nat.repr_inj, eq_comm (a := k)]

-- The object comes before the null although it is deeper. Without these two, all is kept.
theorem cast_exact_nested :
    Constant.ofHost (.array [.number (.integer (-7)),
        .array [.string "A", .object [("k", .null)]], .null]) =
          .error (.unsupportedValue (.object [("k", .null)])) ∧
      Constant.ofHost (.array [.number (.integer (-7)), .array [.string "A", .array []]]) =
        .ok (.array [.number "-7", .array [.string "A", .array []]]) ∧
      (∀ place part, (HostValue.array [.number (.integer (-7)), .array [.string "A", .array []]]).part?
        place = some part → part.isUnsupported = false) ∧
      (Constant.string "A" ≠ .nil ∧ ∀ truth, Constant.string "A" ≠ .bool truth) ∧
      (Formula.count (.variable "a")).evaluate (Context.empty.insert "a"
        (.array [.string "x", .array [.string "y"]])) = .ok (.number "2") := by
  obtain ⟨hsupported, hkeeps, hplain, hfirst, hcount⟩ := cast_exact
  have hkept : Constant.ofHost (.array [.number (.integer (-7)), .array [.string "A", .array []]]) =
      .ok (.array [.number "-7", .array [.string "A", .array []]]) :=
    (hkeeps _ _).mpr (.array (.cons (.number _)
      (.cons (.array (.cons (.string _) (.cons (.array .nil) .nil))) .nil)))
  have hobject : HostValue.IsFirst (.array [.number (.integer (-7)),
      .array [.string "A", .object [("k", .null)]], .null]) [1, 1] (.object [("k", .null)]) := by
    refine HostValue.isFirst_array rfl ?_ (HostValue.isFirst_array rfl ?_ (HostValue.isFirst_self rfl))
    · simpa using HostValue.isSupported_leaf rfl fun _ _ => rfl
    · simpa using HostValue.isSupported_leaf rfl fun _ _ => rfl
  refine ⟨(hfirst _ _).mpr ⟨[1, 1], _, rfl, hobject⟩, hkept, (hsupported _).mp ⟨_, hkept⟩,
    hplain _ _ hkept [1, 0] _ rfl, (hcount _ "a" 2).mpr ⟨_, rfl, rfl⟩⟩

end Verdict

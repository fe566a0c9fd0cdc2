import Verdict.Proofs.Evaluation.Readable

namespace Verdict

namespace Binary64

def isZero : Binary64 → Bool
  | .finite value => value.rank = 0
  | _ => false

-- Two values share a place only if they are the two zeros. So NaN has a place of its own.
theorem place_eq_place_iff {left right : Binary64} :
    left.place = right.place ↔ left = right ∨ left.isZero ∧ right.isZero := by
  have hinfinite : 0 < infiniteRank := by decide
  -- one case for each kind and sign
  rcases left with ⟨_ | _, leftRank, hleft⟩ | (_ | _) | _ <;>
    rcases right with ⟨_ | _, rightRank, hright⟩ | (_ | _) | _ <;>
    simp [place, isZero] <;> omega

end Binary64

namespace Constant

mutual

-- Constants that stand for one value: of one kind, numbers at one place, arrays item by item.
inductive Alike : Constant → Constant → Prop
  | bool (value : Bool) : Alike (.bool value) (.bool value)
  | nil : Alike .nil .nil
  | number {left right : String} {leftValue rightValue : Binary64}
      (hleft : readNumber left = .ok leftValue) (hright : readNumber right = .ok rightValue)
      (hplace : leftValue.place = rightValue.place) : Alike (.number left) (.number right)
  | string (text : String) : Alike (.string text) (.string text)
  | array {lefts rights : List Constant} (hitems : AlikeItems lefts rights) :
      Alike (.array lefts) (.array rights)

inductive AlikeItems : List Constant → List Constant → Prop
  | nil : AlikeItems [] []
  | cons {left right : Constant} {lefts rights : List Constant} (hitem : Alike left right)
      (hitems : AlikeItems lefts rights) : AlikeItems (left :: lefts) (right :: rights)

end

theorem readNumber_of_read? {text : String} {value : Binary64}
    (hread : Binary64.read? (Text.trim text.toList) = some value) :
    readNumber text = .ok value := by
  rw [readNumber, hread]

section Comparison

variable {left right : Constant} {lefts rights : List Constant}

theorem equals_number {left right : String} {leftValue rightValue : Binary64}
    (hleft : readNumber left = .ok leftValue) (hright : readNumber right = .ok rightValue) :
    (number left).equals (.number right) = .ok (decide (leftValue.place = rightValue.place)) := by
  rw [equals, hleft, hright]
  rfl

theorem equalItems_cons (left right : Constant) (lefts rights : List Constant) :
    equalItems (left :: lefts) (right :: rights) =
      (left.equals right).bind fun equal =>
        if equal then equalItems lefts rights else .ok false := by
  rw [equalItems]
  rfl

theorem AlikeItems.length_eq (h : AlikeItems lefts rights) : lefts.length = rights.length := by
  induction lefts generalizing rights with
  | nil =>
      cases h
      rfl
  | cons left lefts ih =>
      cases h with
      | cons _ hitems => simp [ih hitems]

mutual

theorem Alike.equals_eq {left right : Constant} (h : Alike left right) :
    left.equals right = .ok true := by
  cases h with
  | bool value => simp [equals]
  | nil => rfl
  | number hleft hright hplace => rw [equals_number hleft hright, decide_eq_true hplace]
  | string text => simp [equals]
  | array hitems => rw [equals, if_pos hitems.length_eq, hitems.equalItems_eq]

theorem AlikeItems.equalItems_eq {lefts rights : List Constant} (h : AlikeItems lefts rights) :
    equalItems lefts rights = .ok true := by
  cases h with
  | nil => rfl
  | cons hitem hitems =>
      rw [equalItems_cons, hitem.equals_eq]
      exact hitems.equalItems_eq

end

mutual

theorem alike_of_equals {left right : Constant} (h : left.equals right = .ok true) :
    Alike left right := by
  cases left with
  | nil =>
      cases right with
      | nil => exact .nil
      | _ => simp [equals] at h
  | bool left =>
      cases right with
      | bool right =>
          obtain rfl : left = right := by simpa [equals] using h
          exact .bool left
      | _ => simp [equals] at h
  | number left =>
      cases right with
      | number right =>
          rw [equals] at h
          obtain ⟨leftValue, hleft, hrest⟩ := Except.bind_eq_ok_iff.mp h
          obtain ⟨rightValue, hright, hequal⟩ := Except.bind_eq_ok_iff.mp hrest
          exact .number hleft hright (of_decide_eq_true (Except.ok.inj hequal))
      | _ => simp [equals] at h
  | string left =>
      cases right with
      | string right =>
          obtain rfl : left = right := by simpa [equals] using h
          exact .string left
      | _ => simp [equals] at h
  | array lefts =>
      cases right with
      | array rights =>
          rw [equals] at h
          by_cases hlength : lefts.length = rights.length
          · rw [if_pos hlength] at h
            exact .array (alikeItems_of_equalItems hlength h)
          · rw [if_neg hlength] at h
            cases h
      | _ => simp [equals] at h

theorem alikeItems_of_equalItems {lefts rights : List Constant}
    (hlength : lefts.length = rights.length) (h : equalItems lefts rights = .ok true) :
    AlikeItems lefts rights := by
  cases lefts with
  | nil =>
      obtain rfl := List.length_eq_zero_iff.mp hlength.symm
      exact .nil
  | cons left lefts =>
      obtain ⟨right, rights, rfl⟩ := List.exists_cons_of_length_eq_add_one hlength.symm
      rw [equalItems_cons] at h
      obtain ⟨equal, hitem, hmore⟩ := Except.bind_eq_ok_iff.mp h
      cases equal with
      | false => cases hmore
      | true =>
          exact .cons (alike_of_equals hitem)
            (alikeItems_of_equalItems (Nat.succ.inj hlength) hmore)

end

theorem equals_eq_true_iff : left.equals right = .ok true ↔ Alike left right :=
  ⟨alike_of_equals, Alike.equals_eq⟩

mutual

theorem Alike.isReadable {left right : Constant} (h : Alike left right) : left.IsReadable := by
  cases h with
  | number hleft => simpa [IsReadable, numbers] using ⟨_, hleft⟩
  | array hitems => exact isReadable_array.mpr hitems.isReadable
  | _ => simp [IsReadable, numbers]

theorem AlikeItems.isReadable {lefts rights : List Constant} (h : AlikeItems lefts rights) :
    ∀ text ∈ itemNumbers lefts, ∃ value, readNumber text = .ok value := by
  cases h with
  | nil => simp [itemNumbers]
  | cons hitem hitems => exact List.forall_mem_append.mpr ⟨hitem.isReadable, hitems.isReadable⟩

end

mutual

theorem Alike.refl (constant : Constant) (h : constant.IsReadable) : Alike constant constant := by
  cases constant with
  | bool value => exact .bool value
  | nil => exact .nil
  | number text =>
      obtain ⟨value, hvalue⟩ := exists_readNumber_of_isReadable h
      exact .number hvalue hvalue rfl
  | string text => exact .string text
  | array items => exact .array (AlikeItems.refl items (isReadable_array.mp h))

theorem AlikeItems.refl (items : List Constant)
    (h : ∀ text ∈ itemNumbers items, ∃ value, readNumber text = .ok value) :
    AlikeItems items items := by
  cases items with
  | nil => exact .nil
  | cons item items =>
      obtain ⟨hitem, hitems⟩ := List.forall_mem_append.mp h
      exact .cons (Alike.refl item hitem) (AlikeItems.refl items hitems)

end

mutual

-- Which of two constants comes first matters only if neither can be read, because then the error
-- names the number that is read first.
theorem equals_comm_of_isReadable (left right : Constant) (hleft : left.IsReadable) :
    left.equals right = right.equals left := by
  cases left with
  | number left =>
      cases right with
      | number right =>
          obtain ⟨leftValue, hvalue⟩ := exists_readNumber_of_isReadable hleft
          cases hright : readNumber right with
          | error error =>
              rw [equals, equals, hvalue, hright]
              rfl
          | ok rightValue =>
              rw [equals_number hvalue hright, equals_number hright hvalue]
              simp only [eq_comm]
      | _ => simp [equals]
  | array lefts =>
      cases right with
      | array rights =>
          by_cases hlength : lefts.length = rights.length
          · rw [equals, equals, if_pos hlength, if_pos hlength.symm]
            exact equalItems_comm_of_isReadable lefts rights (isReadable_array.mp hleft)
          · rw [equals, equals, if_neg hlength, if_neg (Ne.symm hlength)]
      | _ => simp [equals]
  | _ => cases right <;> simp [equals, eq_comm]

theorem equalItems_comm_of_isReadable (lefts rights : List Constant)
    (hlefts : ∀ text ∈ itemNumbers lefts, ∃ value, readNumber text = .ok value) :
    equalItems lefts rights = equalItems rights lefts := by
  cases lefts with
  | nil => cases rights <;> simp [equalItems]
  | cons left lefts =>
      cases rights with
      | nil => simp [equalItems]
      | cons right rights =>
          obtain ⟨hleft, hlefts⟩ := List.forall_mem_append.mp hlefts
          rw [equalItems_cons, equalItems_cons, equals_comm_of_isReadable left right hleft,
            equalItems_comm_of_isReadable lefts rights hlefts]

end

mutual

-- Alike constants cannot be told apart by what they are equal to, not even by an error.
theorem Alike.equals_congr {left right : Constant} (h : Alike left right) (other : Constant) :
    left.equals other = right.equals other := by
  cases h with
  | number hleft hright hplace =>
      cases other with
      | number text =>
          rw [equals, equals, hleft, hright]
          simp only [Except.bind_eq_bind, Except.ok_bind, hplace]
      | _ => simp [equals]
  | array hitems =>
      cases other with
      | array others => rw [equals, equals, hitems.length_eq, hitems.equalItems_congr others]
      | _ => simp [equals]
  | _ => rfl

theorem AlikeItems.equalItems_congr {lefts rights : List Constant} (h : AlikeItems lefts rights)
    (others : List Constant) : equalItems lefts others = equalItems rights others := by
  cases h with
  | nil => rfl
  | cons hitem hitems =>
      cases others with
      | nil => simp [equalItems]
      | cons other others =>
          rw [equalItems_cons, equalItems_cons, hitem.equals_congr other,
            hitems.equalItems_congr others]

end

theorem Alike.symm (h : Alike left right) : Alike right left := by
  rw [← equals_eq_true_iff, ← equals_comm_of_isReadable left right h.isReadable]
  exact h.equals_eq

theorem Alike.equals_congr_right (h : Alike left right) (other : Constant) :
    other.equals left = other.equals right := by
  rw [← equals_comm_of_isReadable left other h.isReadable,
    ← equals_comm_of_isReadable right other h.symm.isReadable, h.equals_congr other]

theorem Alike.lessThan_congr (h : Alike left right) (other : Constant) :
    left.lessThan other = right.lessThan other ∧ other.lessThan left = other.lessThan right := by
  cases h with
  | number hleft hright hplace =>
      cases other with
      | number text =>
          rw [lessThan, lessThan, lessThan, lessThan, hleft, hright]
          simp only [Except.bind_eq_bind, Except.ok_bind, hplace, true_and]
      | _ => exact ⟨by simp [lessThan], by simp [lessThan]⟩
  | array hitems => exact ⟨by simp [lessThan], by simp [lessThan]⟩
  | _ => exact ⟨rfl, rfl⟩

theorem Alike.toBool_eq (h : Alike left right) : left.toBool = right.toBool := by
  cases h <;> rfl

-- All operators compare by equality, order and truth, none of which tells alike constants apart.
theorem Alike.apply_congr (h : Alike left right) (op : Operator) (other : Constant) :
    op.apply left other = op.apply right other ∧ op.apply other left = op.apply other right := by
  have hequals := h.equals_congr other
  have hequals' := h.equals_congr_right other
  obtain ⟨hless, hless'⟩ := h.lessThan_congr other
  have hbool := h.toBool_eq
  cases op with
  | and => simp only [Operator.apply, and, hbool, true_and]
  | or => simp only [Operator.apply, or, hbool, true_and]
  | equal => exact ⟨hequals, hequals'⟩
  | notEqual => simp only [Operator.apply, notEquals, hequals, hequals', true_and]
  | greater =>
      simp only [Operator.apply, greaterThan, notEquals, hless, hless', hequals, hequals', true_and]
  | greaterEqual => simp only [Operator.apply, greaterEqual, hless, hless', true_and]
  | less => exact ⟨hless, hless'⟩
  | lessEqual =>
      simp only [Operator.apply, lessEqual, hless, hless', hequals, hequals', true_and]

end Comparison

-- Constants that can be read are equal to themselves, and the same to each other in either order.
-- Equal constants can be put for each other under every operator, next to a constant of any kind
-- and even one that cannot be read. Numbers are equal by value, which makes NaN equal to itself and
-- the two zeros equal to each other.
theorem equals_congruence :
    (∀ constant : Constant, constant.IsReadable → constant.equals constant = .ok true) ∧
      (∀ left right : Constant, left.IsReadable → right.IsReadable →
        left.equals right = right.equals left ∧
          ((∃ equal, left.equals right = .ok equal) ∨ left.equals right = .error .typesMismatch)) ∧
      (∀ left right : Constant, left.equals right = .ok true →
        ∀ (op : Operator) (other : Constant),
          op.apply left other = op.apply right other ∧
            op.apply other left = op.apply other right) ∧
      ∀ (left right : String) (leftValue rightValue : Binary64),
        readNumber left = .ok leftValue → readNumber right = .ok rightValue →
          (number left).equals (.number right) =
            .ok (decide (leftValue = rightValue ∨ leftValue.isZero ∧ rightValue.isZero)) := by
  refine ⟨fun constant h => (Alike.refl constant h).equals_eq, ?_, ?_, ?_⟩
  · intro left right hleft hright
    refine ⟨equals_comm_of_isReadable left right hleft, ?_⟩
    cases hequals : left.equals right with
    | ok equal => exact .inl ⟨equal, rfl⟩
    | error error =>
        rw [eq_typesMismatch_of_equals left right hleft hright hequals]
        exact .inr rfl
  · intro left right hequals
    exact (equals_eq_true_iff.mp hequals).apply_congr
  · intro left right leftValue rightValue hleft hright
    simp only [equals_number hleft hright, Binary64.place_eq_place_iff]

-- A NaN in an array, two arrays of one length and different kinds, two equal arrays of other texts
-- next to one with a number that cannot be read, and the two zeros.
theorem equals_congruence_nested :
    (array [.number "nan"]).equals (.array [.number "nan"]) = .ok true ∧
      (array [.number "nan", .nil]).equals (.array [.string "a", .number "10"]) =
        (array [.string "a", .number "10"]).equals (.array [.number "nan", .nil]) ∧
      (array [.number "10", .array [.number "-0"]]).equals
        (.array [.number "1e1", .array [.number "0"]]) = .ok true ∧
      Operator.notEqual.apply (.array [.number "10", .array [.number "-0"]])
          (.array [.number "10", .array [.number "x"]]) =
        Operator.notEqual.apply (.array [.number "1e1", .array [.number "0"]])
          (.array [.number "10", .array [.number "x"]]) ∧
      (number "-0").equals (.number "0") = .ok true := by
  have hnan : readNumber "nan" = .ok .nan := readNumber_of_read? (by decide +kernel)
  have hten : readNumber "10" = .ok (.finite ⟨false, 0x4024000000000000, by decide⟩) :=
    readNumber_of_read? (by decide +kernel)
  have hten' : readNumber "1e1" = .ok (.finite ⟨false, 0x4024000000000000, by decide⟩) :=
    readNumber_of_read? (by decide +kernel)
  have hminus : readNumber "-0" = .ok (.finite ⟨true, 0, by decide⟩) :=
    readNumber_of_read? (by decide +kernel)
  have hzero : readNumber "0" = .ok (.finite ⟨false, 0, by decide⟩) :=
    readNumber_of_read? (by decide +kernel)
  have hequal : (array [.number "10", .array [.number "-0"]]).equals
      (.array [.number "1e1", .array [.number "0"]]) = .ok true :=
    (Alike.array (.cons (.number hten hten' rfl)
      (.cons (.array (.cons (.number hminus hzero rfl) .nil)) .nil))).equals_eq
  obtain ⟨hrefl, hcomm, hcongr, hnumber⟩ := equals_congruence
  refine ⟨hrefl _ ?_, (hcomm _ _ ?_ ?_).1, hequal, (hcongr _ _ hequal .notEqual _).1, ?_⟩
  · simp [IsReadable, numbers, itemNumbers, hnan]
  · simp [IsReadable, numbers, itemNumbers, hnan]
  · simp [IsReadable, numbers, itemNumbers, hten]
  · rw [hnumber _ _ _ _ hminus hzero]
    rfl

end Constant

end Verdict

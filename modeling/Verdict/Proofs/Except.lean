import Mathlib.Data.List.Forall2

namespace Except

variable {ε δ α β γ : Type}

-- What a `do` block is made of, as functions of their own.
@[simp] theorem bind_eq_bind (first : Except ε α) (second : α → Except ε β) :
    first >>= second = first.bind second := rfl

@[simp] theorem pure_def (value : α) : (pure value : Except ε α) = .ok value := rfl

@[simp] theorem ok_bind (value : α) (second : α → Except ε β) :
    (ok value : Except ε α).bind second = second value := rfl

@[simp] theorem error_bind (failure : ε) (second : α → Except ε β) :
    (error failure : Except ε α).bind second = .error failure := rfl

@[simp] theorem ok_map (f : α → β) (value : α) :
    (ok value : Except ε α).map f = .ok (f value) := rfl

@[simp] theorem error_map (f : α → β) (failure : ε) :
    (error failure : Except ε α).map f = .error failure := rfl

@[simp] theorem ok_mapError (f : ε → δ) (value : α) :
    (ok value : Except ε α).mapError f = .ok value := rfl

@[simp] theorem error_mapError (f : ε → δ) (failure : ε) :
    (error failure : Except ε α).mapError f = .error (f failure) := rfl

theorem bind_assoc (first : Except ε α) (second : α → Except ε β) (third : β → Except ε γ) :
    (first.bind second).bind third = first.bind fun value => (second value).bind third := by
  cases first <;> rfl

theorem map_eq_bind (first : Except ε α) (f : α → β) :
    first.map f = first.bind fun value => .ok (f value) := by
  cases first <;> rfl

theorem map_bind (first : Except ε α) (second : α → Except ε β) (f : β → γ) :
    (first.bind second).map f = first.bind fun value => (second value).map f := by
  cases first <;> rfl

variable {first : Except ε α} {second : α → Except ε β} {f : α → β} {result : β} {failure : ε}

-- A computation of two parts succeeds where both do, and fails where one of them does.
theorem bind_eq_ok_iff :
    first.bind second = .ok result ↔ ∃ value, first = .ok value ∧ second value = .ok result := by
  cases first <;> simp

theorem bind_eq_error_iff :
    first.bind second = .error failure ↔
      first = .error failure ∨ ∃ value, first = .ok value ∧ second value = .error failure := by
  cases first <;> simp

theorem map_eq_ok_iff :
    first.map f = .ok result ↔ ∃ value, first = .ok value ∧ f value = result := by
  cases first <;> simp

theorem map_eq_error_iff : first.map f = .error failure ↔ first = .error failure := by
  cases first <;> simp

theorem mapError_eq_error_iff {f : ε → δ} {failed : δ} :
    first.mapError f = .error failed ↔ ∃ failure, first = .error failure ∧ f failure = failed := by
  cases first <;> simp

section Lists

variable {read : α → Except ε β} {list : List α} {results : List β}

-- The list that a computation on each member makes is made member by member.
theorem mapM_eq_ok_iff :
    list.mapM read = .ok results ↔
      List.Forall₂ (fun x result => read x = .ok result) list results := by
  induction list generalizing results with
  | nil =>
      rw [List.mapM_nil, List.forall₂_nil_left_iff, pure_def, ok.injEq]
      exact eq_comm
  | cons x list ih =>
      rw [List.mapM_cons, List.forall₂_cons_left_iff]
      constructor
      · intro h
        obtain ⟨result, hx, hmore⟩ := bind_eq_ok_iff.mp h
        obtain ⟨more, hlist, hall⟩ := bind_eq_ok_iff.mp hmore
        exact ⟨result, more, hx, ih.mp hlist, (ok.inj hall).symm⟩
      · rintro ⟨result, more, hx, hmore, rfl⟩
        rw [hx, ih.mpr hmore]
        rfl

theorem exists_of_mem_mapM (hlist : list.mapM read = .ok results) (hresult : result ∈ results) :
    ∃ x ∈ list, read x = .ok result := by
  have hpairs := mapM_eq_ok_iff.mp hlist
  clear hlist
  induction hpairs with
  | nil => cases hresult
  | cons hx hmore ih =>
      rcases List.mem_cons.mp hresult with rfl | hrest
      · exact ⟨_, List.mem_cons_self, hx⟩
      · obtain ⟨x, hmem, hread⟩ := ih hrest
        exact ⟨x, List.mem_cons_of_mem _ hmem, hread⟩

-- Such a computation stops at the first member for which it fails.
theorem mapM_of_first_error {done later : List α} {x : α}
    (hdone : ∀ y ∈ done, ∃ result, read y = .ok result) (hx : read x = .error failure) :
    (done ++ x :: later).mapM read = .error failure := by
  induction done with
  | nil =>
      rw [List.nil_append, List.mapM_cons, hx]
      rfl
  | cons y done ih =>
      obtain ⟨⟨result, hy⟩, hrest⟩ := List.forall_mem_cons.mp hdone
      rw [List.cons_append, List.mapM_cons, hy, ih hrest]
      rfl

end Lists

end Except

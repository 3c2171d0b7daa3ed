set_option autoImplicit false

/-!
Answers that may fail: one behind another, with their faults renamed, and for every item of a list.
-/

namespace Rumour

variable {ε ε' α β : Type}

/-! Single answers -/

theorem ok_bind (value : α) (next : α -> Except ε β) : (Except.ok value >>= next) = next value := rfl

theorem error_bind (fault : ε) (next : α -> Except ε β) :
    ((Except.error fault : Except ε α) >>= next) = .error fault := rfl

theorem throw_eq (fault : ε) : (throw fault : Except ε α) = .error fault := rfl

theorem mapError_ok (rename : ε -> ε') (value : α) :
    (Except.ok value : Except ε α).mapError rename = .ok value := rfl

theorem mapError_error (rename : ε -> ε') (fault : ε) :
    (Except.error fault : Except ε α).mapError rename = .error (rename fault) := rfl

theorem mapError_eq_ok {rename : ε -> ε'} {result : Except ε α} {value : α} :
    result.mapError rename = .ok value ↔ result = .ok value := by
  cases result with
  | error fault =>
      constructor <;> intro failed <;> cases failed
  | ok answer =>
      constructor <;> intro same <;> cases same <;> rfl

/-! Answers for the items of a list -/

section

variable {action : α -> Except ε β} {items : List α}

theorem mapM_eq_ok_of_map {values : List β} (answers : items.map action = values.map .ok) :
    items.mapM action = .ok values := by
  induction items generalizing values with
  | nil =>
      obtain rfl : values = [] := by simpa using answers.symm
      rfl
  | cons item rest ih =>
      cases values with
      | nil => cases answers
      | cons value others =>
          obtain ⟨head, tail⟩ := List.cons.inj answers
          rw [List.mapM_cons, head, ih tail]
          rfl

/-- Of several failures the first one is told. -/
theorem mapM_eq_error_of_map {values : List β} {cause : ε} {later : List (Except ε β)}
    (answers : items.map action = values.map .ok ++ .error cause :: later) :
    items.mapM action = .error cause := by
  induction items generalizing values with
  | nil => cases values <;> cases answers
  | cons item rest ih =>
      rw [List.mapM_cons]
      cases values with
      | nil =>
          rw [(List.cons.inj answers).1]
          rfl
      | cons value others =>
          obtain ⟨head, tail⟩ := List.cons.inj answers
          rw [head, ih tail]
          rfl

theorem mapM_cons_eq_ok {item : α} {rest : List α} {values : List β} :
    (item :: rest).mapM action = .ok values ↔
      ∃ value others, action item = .ok value ∧ rest.mapM action = .ok others ∧
        values = value :: others := by
  rw [List.mapM_cons]
  simp only [Bind.bind, Except.bind, Pure.pure, Except.pure]
  cases action item with
  | error cause => simp
  | ok value => cases rest.mapM action <;> simp [eq_comm]

theorem map_of_mapM_eq_ok {values : List β} (returned : items.mapM action = .ok values) :
    items.map action = values.map .ok := by
  induction items generalizing values with
  | nil =>
      cases returned
      rfl
  | cons first rest ih =>
      obtain ⟨value, others, head, tail, rfl⟩ := mapM_cons_eq_ok.1 returned
      rw [List.map_cons, List.map_cons, head, ih tail]

theorem exists_ok_of_mem {values : List β} (returned : items.mapM action = .ok values) {item : α}
    (member : item ∈ items) : ∃ value, action item = .ok value := by
  have listed := List.mem_map_of_mem (f := action) member
  rw [map_of_mapM_eq_ok returned] at listed
  obtain ⟨value, _, same⟩ := List.mem_map.1 listed
  exact ⟨value, same.symm⟩

theorem exists_of_mapM_error {cause : ε} (failed : items.mapM action = .error cause) :
    ∃ item ∈ items, action item = .error cause := by
  induction items with
  | nil => cases failed
  | cons first rest ih =>
      rw [List.mapM_cons] at failed
      cases head : action first with
      | error other =>
          rw [head] at failed
          cases failed
          exact ⟨first, by simp, head⟩
      | ok value =>
          rw [head] at failed
          cases tail : rest.mapM action with
          | ok values =>
              rw [tail] at failed
              cases failed
          | error other =>
              rw [tail] at failed
              cases failed
              obtain ⟨item, member, stopped⟩ := ih tail
              exact ⟨item, List.mem_cons_of_mem _ member, stopped⟩

end

end Rumour

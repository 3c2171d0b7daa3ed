import Rumour.Halt

set_option autoImplicit false

/-!
What an action guarantees. From every state that meets a condition it gives a value that is right for the
state it leaves, or it stops for a cause that is allowed there.
-/

namespace Rumour

variable {ε σ α β : Type}

instance decidableEqResult [DecidableEq ε] [DecidableEq σ] [DecidableEq α] :
    DecidableEq (EStateM.Result ε σ α)
  | .ok value state, .ok other left => decidable_of_iff (value = other ∧ state = left) (by simp)
  | .error cause state, .error other left => decidable_of_iff (cause = other ∧ state = left) (by simp)
  | .ok _ _, .error _ _ => isFalse fun same => by cases same
  | .error _ _, .ok _ _ => isFalse fun same => by cases same

/-! Results -/

section

variable {τ : Type}

/-- A result whose state is seen in another way. -/
def seenAs (view : σ -> τ) : EStateM.Result ε σ α -> EStateM.Result ε τ α
  | .ok value state => .ok value (view state)
  | .error cause state => .error cause (view state)

/-- The state that a result leaves. -/
def stateOf : EStateM.Result ε σ α -> σ
  | .ok _ state => state
  | .error _ state => state

/-- What stopped an action, if anything did. -/
def causeOf : EStateM.Result ε σ α -> Option ε
  | .ok _ _ => none
  | .error cause _ => some cause

@[simp] theorem stateOf_seenAs (view : σ -> τ) (result : EStateM.Result ε σ α) :
    stateOf (seenAs view result) = view (stateOf result) := by
  cases result <;> rfl

@[simp] theorem causeOf_seenAs (view : σ -> τ) (result : EStateM.Result ε σ α) :
    causeOf (seenAs view result) = causeOf result := by
  cases result <;> rfl

end

/-! Sequences -/

section

variable {first : EStateM ε σ α} {next : α -> EStateM ε σ β} {before after : σ}

theorem bind_eq_ok_iff {value : β} :
    (first >>= next) before = .ok value after ↔
      ∃ middle between, first before = .ok middle between ∧ next middle between = .ok value after := by
  simp only [Bind.bind, EStateM.bind]
  cases first before with
  | error cause left =>
      constructor
      · intro impossible
        cases impossible
      · rintro ⟨_, _, impossible, _⟩
        cases impossible
  | ok middle between =>
      constructor
      · exact fun rest => ⟨middle, between, rfl, rest⟩
      · rintro ⟨_, _, same, rest⟩
        cases same
        exact rest

theorem bind_eq_error_iff {cause : ε} :
    (first >>= next) before = .error cause after ↔
      first before = .error cause after ∨
        ∃ middle between, first before = .ok middle between ∧ next middle between = .error cause after := by
  simp only [Bind.bind, EStateM.bind]
  cases first before with
  | error early left =>
      constructor
      · intro same
        cases same
        exact .inl rfl
      · rintro (same | ⟨_, _, impossible, _⟩)
        · cases same
          rfl
        · cases impossible
  | ok middle between =>
      constructor
      · exact fun rest => .inr ⟨middle, between, rfl, rest⟩
      · rintro (impossible | ⟨_, _, same, rest⟩)
        · cases impossible
        · cases same
          exact rest

end

def Guarantees (action : EStateM ε σ α) (before : σ -> Prop) (after : α -> σ -> Prop)
    (stopped : ε -> σ -> Prop) : Prop :=
  ∀ state, before state →
    match action state with
    | .ok value next => after value next
    | .error cause next => stopped cause next

namespace Guarantees

variable {action : EStateM ε σ α} {before : σ -> Prop} {after : α -> σ -> Prop}
  {stopped : ε -> σ -> Prop}

theorem of_ok (sure : Guarantees action before after stopped) {state next : σ} {value : α}
    (met : before state) (returned : action state = .ok value next) : after value next := by
  have result := sure state met
  rwa [returned] at result

theorem of_error (sure : Guarantees action before after stopped) {state next : σ} {cause : ε}
    (met : before state) (returned : action state = .error cause next) : stopped cause next := by
  have result := sure state met
  rwa [returned] at result

theorem pure (value : α) (met : ∀ state, before state → after value state) :
    Guarantees (pure value) before after stopped := by
  intro state holds
  exact met state holds

theorem bind {middle : α -> σ -> Prop} {next : α -> EStateM ε σ β} {last : β -> σ -> Prop}
    (first : Guarantees action before middle stopped)
    (second : ∀ value, Guarantees (next value) (middle value) last stopped) :
    Guarantees (action >>= next) before last stopped := by
  intro state holds
  have result := first state holds
  simp only [Bind.bind, EStateM.bind]
  cases ran : action state with
  | ok value between =>
      rw [ran] at result
      exact second value between result
  | error cause between =>
      rw [ran] at result
      exact result

/-- More causes may be allowed. -/
theorem weaken {weaker : ε -> σ -> Prop} (sure : Guarantees action before after stopped)
    (causes : ∀ cause state, stopped cause state → weaker cause state) :
    Guarantees action before after weaker := by
  intro state holds
  cases ran : action state with
  | ok value next => exact sure.of_ok holds ran
  | error cause next => exact causes cause next (sure.of_error holds ran)

theorem keeps {kept : σ -> Prop} (sure : Guarantees action kept (fun _ => kept) (fun _ => kept)) {state : σ}
    (met : kept state) : kept (stateOf (action state)) := by
  cases ran : action state with
  | ok value next => exact sure.of_ok met ran
  | error cause next => exact sure.of_error met ran

end Guarantees

end Rumour

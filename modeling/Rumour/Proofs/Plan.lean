import Rumour.Plan
import Rumour.Proofs.Epidemic.Rounds
import Rumour.Proofs.Except
import Rumour.Proofs.Sizes

set_option autoImplicit false

/-!
What an accepted plan settles. Only the first and the last size are looked at, but the parameters of every
size are valid, plain and seeded.
-/

namespace Rumour.Plan

theorem checkSizes_eq_ok_iff (plan : Plan) (sizes : List Nat) :
    plan.checkSizes sizes = .ok () ↔
      ∀ size ∈ sizes, ∀ seeded, (plan.parametersFor size seeded).validate = .ok () := by
  induction sizes with
  | nil => simp [checkSizes]
  | cons size rest ih =>
      simp only [checkSizes, List.forall_mem_cons, ← ih]
      cases plain : (plan.parametersFor size false).validate with
      | error fault => simp [Bind.bind, Except.bind, plain]
      | ok _ =>
          cases seeded : (plan.parametersFor size true).validate with
          | error fault => simp [Bind.bind, Except.bind, plain, seeded]
          | ok _ => simp [Bind.bind, Except.bind, plain, seeded]

/-- The sizes whose parameters are looked at. -/
def ends (plan : Plan) : List Nat :=
  [plan.sizes.start, plan.sizes.last?.getD plan.sizes.start]

theorem ends_subset {plan : Plan} (someSize : 0 < plan.sizes.count) : plan.ends ⊆ plan.sizes.toList := by
  have first := Sizes.start_mem_toList someSize
  have last : plan.sizes.last?.getD plan.sizes.start ∈ plan.sizes.toList := by
    cases final : plan.sizes.last? with
    | none => exact first
    | some size => exact Sizes.last_mem_toList final
  simp [ends, first, last]

theorem validate_eq_ok_iff (plan : Plan) :
    plan.validate = .ok () ↔
      plan.sizes.step ≠ 0 ∧ plan.sizes.start ≠ 0 ∧ plan.sizes.start < plan.sizes.stop ∧
        plan.repetitions ≠ 0 ∧ plan.threads ≠ some 0 ∧ plan.checkSizes plan.ends = .ok () := by
  by_cases still : plan.sizes.step = 0
  · simp [validate, still]
  by_cases origin : plan.sizes.start = 0
  · simp [validate, still, origin]
  by_cases empty : plan.sizes.stop ≤ plan.sizes.start
  · simp [validate, still, origin, empty, Nat.not_lt.2 empty]
  by_cases never : plan.repetitions = 0
  · simp [validate, still, origin, empty, never]
  by_cases idle : plan.threads = some 0
  · simp [validate, still, origin, empty, never, idle]
  · simp [validate, still, origin, empty, never, idle, Nat.not_le.1 empty, ends, mapError_eq_ok]

theorem step_pos {plan : Plan} (accepted : plan.validate = .ok ()) : 0 < plan.sizes.step :=
  Nat.pos_of_ne_zero (plan.validate_eq_ok_iff.1 accepted).1

theorem validate_between {plan : Plan} {low size high : Nat} {seeded : Bool}
    (lower : (plan.parametersFor low seeded).validate = .ok ())
    (upper : (plan.parametersFor high seeded).validate = .ok ())
    (above : low ≤ size) (below : size ≤ high) :
    (plan.parametersFor size seeded).validate = .ok () := by
  rw [Parameters.validate_eq_ok_iff] at *
  simp only [parametersFor] at *
  exact ⟨by omega, by omega, lower.2.2⟩

theorem parametersFor_valid {plan : Plan} (accepted : plan.validate = .ok ()) {size : Nat}
    (member : size ∈ plan.sizes.toList) (seeded : Bool) :
    (plan.parametersFor size seeded).validate = .ok () := by
  obtain ⟨_, _, _, _, _, checked⟩ := plan.validate_eq_ok_iff.1 accepted
  rw [checkSizes_eq_ok_iff] at checked
  have someSize : plan.sizes.count ≠ 0 := by
    rw [← Sizes.length_toList]
    exact Nat.ne_of_gt (List.length_pos_of_mem member)
  obtain ⟨last, lastIs⟩ : ∃ last, plan.sizes.last? = some last := by
    simp [Sizes.last?, Sizes.isEmpty, someSize]
  have first := checked plan.sizes.start (by simp [ends]) seeded
  have final := checked last (by simp [ends, lastIs]) seeded
  exact validate_between first final (Sizes.start_le member) (Sizes.le_last member lastIs)

end Rumour.Plan

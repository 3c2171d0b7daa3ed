import Rumour.Sweep.Trials

set_option autoImplicit false

/-!
What trials read of a ledger. They draw from its stream and only add to what it holds already, so a ledger that
goes on behind an earlier one is the earlier one followed by what it would hold by itself.
-/

namespace Rumour

open Rumour.Random

variable {α β : Type}

def Ledger.behind (ledger earlier : Ledger) : Ledger :=
  { stream := ledger.stream
    notices := earlier.notices ++ ledger.notices
    records := earlier.records ++ ledger.records }

def Appends (action : EStateM SweepStop Ledger α) : Prop :=
  ∀ ledger earlier,
    action (ledger.behind earlier) =
      match action ledger with
      | .ok value next => .ok value (next.behind earlier)
      | .error stop next => .error stop (next.behind earlier)

namespace Appends

theorem pure (value : α) : Appends (pure value) :=
  fun _ _ => rfl

theorem bind {first : EStateM SweepStop Ledger α} {next : α -> EStateM SweepStop Ledger β}
    (appends : Appends first) (others : ∀ value, Appends (next value)) : Appends (first >>= next) := by
  intro ledger earlier
  simp only [Bind.bind, EStateM.bind, appends ledger earlier]
  cases first ledger with
  | ok value middle => exact others value middle earlier
  | error stop middle => rfl

end Appends

namespace Ledger

theorem tell_appends (notice : Notice) : Appends (tell notice) := by
  rintro ⟨stream, notices, records⟩ earlier
  simp [tell, behind]

theorem enter_appends (repetition : Nat) (record : Record) : Appends (enter repetition record) := by
  rintro ⟨stream, notices, records⟩ earlier
  simp [enter, behind]

theorem simulate_appends (patience : Nat) (parameters : Parameters) :
    Appends (simulate patience parameters) := by
  rintro ⟨stream, notices, records⟩ earlier
  simp only [simulate, behind]
  cases Rumour.simulate patience parameters stream with
  | error halt rest => rfl
  | ok result rest => cases result <;> rfl

end Ledger

namespace Plan

theorem trial_appends (plan : Plan) (patience size repetition : Nat) (seeded : Bool) :
    Appends (plan.trial patience size repetition seeded) :=
  .bind (Ledger.simulate_appends patience _) fun _ => Ledger.enter_appends repetition _

theorem repetitionsFrom_appends (plan : Plan) (patience size count repetition : Nat) :
    Appends (plan.repetitionsFrom patience size count repetition) := by
  induction count generalizing repetition with
  | zero => exact .pure ()
  | succ count ih =>
      refine .bind (plan.trial_appends patience size repetition false) fun _ => ?_
      exact .bind (plan.trial_appends patience size repetition true) fun _ => ih (repetition + 1)

theorem sweepSize_appends (plan : Plan) (patience size : Nat) : Appends (plan.sweepSize patience size) :=
  .bind (Ledger.tell_appends _) fun _ =>
    plan.repetitionsFrom_appends patience size plan.repetitions 0

/-! Other sizes -/

def onSizes (plan : Plan) (sizes : Sizes) : Plan :=
  { plan with sizes }

@[simp] theorem sizes_onSizes (plan : Plan) (sizes : Sizes) : (plan.onSizes sizes).sizes = sizes := rfl

theorem repetitionsFrom_onSizes (plan : Plan) (sizes : Sizes) (patience size count repetition : Nat) :
    (plan.onSizes sizes).repetitionsFrom patience size count repetition =
      plan.repetitionsFrom patience size count repetition := by
  induction count generalizing repetition with
  | zero => rfl
  | succ count ih =>
      simp only [repetitionsFrom, ih]
      rfl

theorem sweepSize_onSizes (plan : Plan) (sizes : Sizes) (patience size : Nat) :
    (plan.onSizes sizes).sweepSize patience size = plan.sweepSize patience size := by
  simp only [sweepSize, repetitionsFrom_onSizes]
  rfl

end Plan

end Rumour

import Rumour.Proofs.Plan
import Rumour.Sweep.Trials

set_option autoImplicit false

/-!
What the trials of a size leave in the ledger. The records fill slots of a size and a policy in order, each
with rounds that its parameters allow, and only a trial that falls short at the cap stops them.
-/

namespace Rumour

open Rumour.Random

def Record.slot (record : Record) : Nat × Bool :=
  (record.size, record.seeded)

namespace Plan

def sizeSlots (plan : Plan) (size : Nat) : List (Nat × Bool) :=
  (List.replicate plan.repetitions [(size, false), (size, true)]).flatten

structure Fills (plan : Plan) (slots : List (Nat × Bool)) (records : List Record) : Prop where
  order : records.map Record.slot = slots
  rounds : ∀ record ∈ records,
    (plan.parametersFor record.size record.seeded).CanTake record.rounds

theorem fills_nil (plan : Plan) : plan.Fills [] [] :=
  { order := rfl
    rounds := by simp }

theorem Fills.append {plan : Plan} {slots more : List (Nat × Bool)} {records later : List Record}
    (first : plan.Fills slots records) (second : plan.Fills more later) :
    plan.Fills (slots ++ more) (records ++ later) := by
  constructor
  next => rw [List.map_append, first.order, second.order]
  next =>
    intro record member
    rcases List.mem_append.1 member with early | late
    · exact first.rounds record early
    · exact second.rounds record late

theorem Fills.length {plan : Plan} {slots : List (Nat × Bool)} {records : List Record}
    (fills : plan.Fills slots records) : records.length = slots.length := by
  rw [← fills.order, List.length_map]

/-- What can stop a sweep over some sizes: its patience, or a trial at the cap. -/
inductive CanStop (plan : Plan) (sizes : List Nat) : SweepStop -> Prop where
  | unfinished : plan.CanStop sizes (.halted .unfinished)
  | capped (size : Nat) (seeded : Bool) (shortfall : Shortfall) (member : size ∈ sizes)
      (short : (plan.parametersFor size seeded).CanFallShort shortfall) :
      plan.CanStop sizes (.failed (.trial size (.capped shortfall)))

theorem CanStop.mono {plan : Plan} {sizes more : List Nat} {stop : SweepStop}
    (stops : plan.CanStop sizes stop) (subset : sizes ⊆ more) : plan.CanStop more stop := by
  cases stops with
  | unfinished => exact .unfinished
  | capped size seeded shortfall member short =>
      exact .capped size seeded shortfall (subset member) short

def Filled (plan : Plan) (slots : List (Nat × Bool)) (ledger : Ledger) : Prop :=
  plan.Fills slots ledger.records.toList

theorem tell_guarantees (plan : Plan) (notice : Notice) (slots : List (Nat × Bool))
    (stopped : SweepStop -> Ledger -> Prop) :
    Guarantees (Ledger.tell notice) (plan.Filled slots) (fun _ => plan.Filled slots) stopped := by
  rintro ⟨stream, notices, records⟩ filled
  exact filled

theorem simulate_guarantees {plan : Plan} {size : Nat} {seeded : Bool}
    (valid : (plan.parametersFor size seeded).validate = .ok ()) (patience : Nat)
    (slots : List (Nat × Bool)) :
    Guarantees (Ledger.simulate patience (plan.parametersFor size seeded)) (plan.Filled slots)
      (fun rounds ledger =>
        plan.Filled slots ledger ∧ (plan.parametersFor size seeded).CanTake rounds)
      (fun stop _ => plan.CanStop [size] stop) := by
  rintro ⟨stream, notices, records⟩ filled
  have simulated := Rumour.simulate_guarantees _ valid patience stream trivial
  cases ran : Rumour.simulate patience (plan.parametersFor size seeded) stream with
  | error halt rest =>
      rw [ran] at simulated
      obtain rfl : halt = .unfinished := simulated
      simp only [Ledger.simulate, ran]
      exact .unfinished
  | ok result rest =>
      rw [ran] at simulated
      cases result with
      | ok rounds =>
          simp only [Ledger.simulate, ran]
          exact ⟨filled, simulated⟩
      | error fault =>
          obtain ⟨shortfall, rfl, short⟩ := simulated
          simp only [Ledger.simulate, ran]
          exact .capped size seeded shortfall (by simp) short

theorem trial_guarantees {plan : Plan} {size : Nat} {seeded : Bool}
    (valid : (plan.parametersFor size seeded).validate = .ok ()) (patience repetition : Nat)
    (slots : List (Nat × Bool)) :
    Guarantees (plan.trial patience size repetition seeded) (plan.Filled slots)
      (fun _ => plan.Filled (slots ++ [(size, seeded)])) (fun stop _ => plan.CanStop [size] stop) := by
  refine .bind (simulate_guarantees valid patience slots) fun rounds => ?_
  rintro ⟨stream, notices, records⟩ ⟨filled, allowed⟩
  have entered : plan.Fills [(size, seeded)] [{ size, seeded, rounds }] :=
    { order := rfl
      rounds := by simpa using allowed }
  simpa [Ledger.enter, Filled] using Fills.append filled entered

theorem repetitionsFrom_guarantees {plan : Plan} {size : Nat}
    (valid : ∀ seeded, (plan.parametersFor size seeded).validate = .ok ())
    (patience count repetition : Nat) (slots : List (Nat × Bool)) :
    Guarantees (plan.repetitionsFrom patience size count repetition) (plan.Filled slots)
      (fun _ => plan.Filled (slots ++ (List.replicate count [(size, false), (size, true)]).flatten))
      (fun stop _ => plan.CanStop [size] stop) := by
  induction count generalizing repetition slots with
  | zero =>
      refine .pure () fun ledger filled => ?_
      simpa using filled
  | succ count ih =>
      refine .bind (trial_guarantees (valid false) patience repetition slots) fun _ => ?_
      refine .bind (trial_guarantees (valid true) patience repetition _) fun _ => ?_
      have rest := ih (repetition + 1) (slots ++ [(size, false)] ++ [(size, true)])
      simpa [List.replicate_succ] using rest

theorem sweepSize_guarantees {plan : Plan} {size : Nat}
    (valid : ∀ seeded, (plan.parametersFor size seeded).validate = .ok ()) (patience : Nat)
    (slots : List (Nat × Bool)) :
    Guarantees (plan.sweepSize patience size) (plan.Filled slots)
      (fun _ => plan.Filled (slots ++ plan.sizeSlots size)) (fun stop _ => plan.CanStop [size] stop) := by
  exact .bind (plan.tell_guarantees _ slots _) fun _ =>
    repetitionsFrom_guarantees valid patience plan.repetitions 0 slots

end Plan

end Rumour

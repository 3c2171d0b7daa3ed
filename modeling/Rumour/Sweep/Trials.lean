import Rumour.Epidemic.Run
import Rumour.Plan
import Rumour.Sweep.Notice

set_option autoImplicit false

/-!
Trials of a sweep. A ledger holds the stream that trials draw from, what has been told, and the records
so far. A size is tried as often as the plan says, each time plain and then seeded; the first trial that
fails ends it.
-/

namespace Rumour

open Rumour.Random

inductive SweepFault where
  | plan (cause : PlanFault)
  | trial (size : Nat) (cause : RunFault)
  deriving DecidableEq, Repr

namespace SweepFault

def message : SweepFault -> String
  | .plan cause => cause.message
  | .trial size cause => s!"simulation failed at population size {size}: {cause.message}"

def causes : SweepFault -> List String
  | .plan _ => []
  | .trial _ cause => [cause.message]

end SweepFault

inductive SweepStop where
  | failed (fault : SweepFault)
  | halted (cause : Halt)
  deriving DecidableEq, Repr

structure Ledger where
  stream : Stream
  notices : Array Notice
  records : Array Record
  deriving DecidableEq, Repr

namespace Ledger

def ofStream (stream : Stream) : Ledger :=
  { stream, notices := #[], records := #[] }

def tell (notice : Notice) : EStateM SweepStop Ledger Unit
  | { stream, notices, records } => .ok () { stream, notices := notices.push notice, records }

def enter (repetition : Nat) (record : Record) : EStateM SweepStop Ledger Unit
  | { stream, notices, records } =>
      .ok ()
        { stream
          notices :=
            (notices.push (.log (.trialFinished repetition record))).push (.event (.trialEnded record))
          records := records.push record }

def simulate (patience : Nat) (parameters : Parameters) : EStateM SweepStop Ledger Nat
  | { stream, notices, records } =>
      match Rumour.simulate patience parameters stream with
      | .ok (.ok rounds) stream => .ok rounds { stream, notices, records }
      | .ok (.error fault) stream =>
          .error (.failed (.trial parameters.size fault)) { stream, notices, records }
      | .error halt stream => .error (.halted halt) { stream, notices, records }

end Ledger

namespace Plan

def trial (plan : Plan) (patience size repetition : Nat) (seeded : Bool) :
    EStateM SweepStop Ledger Unit := do
  let rounds <- Ledger.simulate patience (plan.parametersFor size seeded)
  Ledger.enter repetition { size, seeded, rounds }

/-- A number of repetitions at a size, counted on from one. -/
def repetitionsFrom (plan : Plan) (patience size : Nat) : Nat -> Nat -> EStateM SweepStop Ledger Unit
  | 0, _ => pure ()
  | count + 1, repetition => do
      plan.trial patience size repetition false
      plan.trial patience size repetition true
      plan.repetitionsFrom patience size count (repetition + 1)

def sweepSize (plan : Plan) (patience size : Nat) : EStateM SweepStop Ledger Unit := do
  Ledger.tell (.log (.sizeStarted size))
  plan.repetitionsFrom patience size plan.repetitions 0

end Plan

end Rumour

import Rumour.Parameters
import Rumour.Sizes

set_option autoImplicit false

/-!
Plans of a sweep: which sizes, how often each, with which peers and seeds, under which cap, from which
random seed and with how many workers. A plan is checked as a whole before anything runs; of the sizes
only the ends are looked at, which settles those between.
-/

namespace Rumour

open Rumour.Binary

structure Plan where
  sizes : Sizes
  repetitions : Nat
  peers : Nat
  seeds : Nat
  seedBias : Binary64
  maxRounds : Option Nat
  randomSeed : Option UInt64
  threads : Option Nat
  deriving DecidableEq, Repr

inductive PlanFault where
  | noStep
  | noStart
  | emptySizes (start stop : Nat)
  | noRepetitions
  | noThreads
  | parameters (cause : ParameterFault)
  deriving DecidableEq, Repr

def PlanFault.text : PlanFault -> String
  | .noStep => "size step must be at least 1"
  | .noStart => "smallest population size must be at least 1"
  | .emptySizes start stop => s!"empty size range {start}..{stop}"
  | .noRepetitions => "repetitions must be at least 1"
  | .noThreads => "thread count must be at least 1"
  | .parameters cause => cause.text

def PlanFault.message (fault : PlanFault) : String :=
  configurationMessage fault.text

namespace Plan

/-- Sizes from 100 below 5001 by 200, thirty times each, one peer, three seeds. -/
def standard : Plan :=
  { sizes := { start := 100, stop := 5001, step := 200 }
    repetitions := 30
    peers := 1
    seeds := 3
    seedBias := Policy.defaultBias
    maxRounds := none
    randomSeed := none
    threads := none }

def policyFor (plan : Plan) (seeded : Bool) : Policy :=
  if seeded then Policy.ofSeedCount plan.seeds plan.seedBias else .uniform

def parametersFor (plan : Plan) (size : Nat) (seeded : Bool) : Parameters :=
  { size, peers := plan.peers, policy := plan.policyFor seeded, maxRounds := plan.maxRounds }

def checkSizes (plan : Plan) : List Nat -> Except ParameterFault Unit
  | [] => .ok ()
  | size :: rest => do
      (plan.parametersFor size false).validate
      (plan.parametersFor size true).validate
      plan.checkSizes rest

/-- Accepts the plans that can be run; of several faults the first is told. -/
def validate (plan : Plan) : Except PlanFault Unit :=
  let sizes := plan.sizes
  if sizes.step = 0 then .error .noStep
  else if sizes.start = 0 then .error .noStart
  else if sizes.stop <= sizes.start then .error (.emptySizes sizes.start sizes.stop)
  else if plan.repetitions = 0 then .error .noRepetitions
  else if plan.threads = some 0 then .error .noThreads
  else
    -- The first and the last size bound all others.
    (plan.checkSizes [sizes.start, sizes.last?.getD sizes.start]).mapError .parameters

/-- How many records a sweep has: two policies for each repetition of each size. -/
def expectedRecords (plan : Plan) : Nat :=
  2 * plan.repetitions * plan.sizes.count

end Plan

end Rumour

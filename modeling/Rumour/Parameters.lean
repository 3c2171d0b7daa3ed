import Rumour.Binary.Shortest
import Rumour.Node

set_option autoImplicit false

/-!
Parameters of one run: how many nodes there are, how many peers a node contacts in its step, whether it
may contact a seed node on top, and after how many rounds to give up.
-/

namespace Rumour

open Rumour.Binary

/-- How a node picks its contacts: evenly from all nodes, or with one more from the first nodes on
the fall of a coin. -/
inductive Policy where
  | uniform
  | seedBiased (seeds : Nat) (bias : Binary64)
  deriving DecidableEq, Repr

namespace Policy

def defaultBias : Binary64 := { bits := 0x3fd3333333333333 }

/-- No seeds, no bias. -/
def ofSeedCount (seeds : Nat) (bias : Binary64) : Policy :=
  if seeds = 0 then .uniform else .seedBiased seeds bias

def seedCount : Policy -> Nat
  | .uniform => 0
  | .seedBiased seeds _ => seeds

def isSeeded : Policy -> Bool
  | .uniform => false
  | .seedBiased _ _ => true

end Policy

inductive ParameterFault where
  | noNodes
  | tooManyNodes (size : Nat)
  | noPeers
  | noSeeds
  | biasOutOfRange (bias : Binary64)
  deriving DecidableEq, Repr

def ParameterFault.text : ParameterFault -> String
  | .noNodes => "population size must be at least 1"
  | .tooManyNodes size => s!"population size {size} exceeds the NodeId range"
  | .noPeers => "peer fan-out must be at least 1"
  | .noSeeds => "seed-biased sampling needs a non-empty seed set"
  | .biasOutOfRange bias => s!"seed bias {bias.text} outside [0, 1]"

def configurationMessage (text : String) : String :=
  "configuration error: " ++ text

def ParameterFault.message (fault : ParameterFault) : String :=
  configurationMessage fault.text

structure Parameters where
  size : Nat
  peers : Nat
  policy : Policy
  maxRounds : Option Nat
  deriving DecidableEq, Repr

namespace Parameters

def create (size peers seeds : Nat) : Parameters :=
  { size, peers, policy := Policy.ofSeedCount seeds Policy.defaultBias, maxRounds := none }

def checkPolicy : Policy -> Except ParameterFault Unit
  | .uniform => .ok ()
  | .seedBiased seeds bias =>
      if seeds = 0 then .error .noSeeds
      else if bias.inUnitInterval then .ok ()
      else .error (.biasOutOfRange bias)

/-- Accepts the parameters that can be run; of several faults the first is told. -/
def validate (parameters : Parameters) : Except ParameterFault Unit :=
  if parameters.size = 0 then .error .noNodes
  else if NodeId.greatestIndex < parameters.size then .error (.tooManyNodes parameters.size)
  else if parameters.peers = 0 then .error .noPeers
  else checkPolicy parameters.policy

end Parameters

end Rumour

import Rumour.Epidemic.Pass
import Rumour.Room

set_option autoImplicit false

/-!
Runs of an epidemic from one infected node. The round counter starts at one and grows with every pass.
A run makes at least one pass; after each it tells its observer the counter and the number of infected
nodes, and ends when all are infected or when the counter has reached the cap. An epidemic that has
converged stays as it is.
-/

namespace Rumour

open Rumour.Random

/-- An epidemic under way. The sizes that bound the draws are those it started with. -/
structure Epidemic where
  parameters : Parameters
  population : Population
  round : Nat
  nodeCount : Nat
  seedCount : Nat
  converged : Bool
  deriving DecidableEq, Repr

inductive RoundEvent where
  | roundEnded (round infected : Nat)
  | converged (round : Nat)
  deriving DecidableEq, Repr

structure Shortfall where
  size : Nat
  rounds : Nat
  infected : Nat
  deriving DecidableEq, Repr

def Shortfall.message (shortfall : Shortfall) : String :=
  s!"population of {shortfall.size} did not converge within {shortfall.rounds} rounds " ++
    s!"({shortfall.infected} infected)"

inductive Ending where
  | converged (rounds : Nat)
  | capped (shortfall : Shortfall)
  | halted (cause : Halt)
  deriving DecidableEq, Repr

structure Course where
  events : List RoundEvent
  ending : Ending
  epidemic : Epidemic
  stream : Stream
  deriving DecidableEq, Repr

def Parameters.contactWidth : Nat := 4

/-- Asks for the contact list of an epidemic: its peers and a seed. Parameters that cannot be run ask
for nothing. -/
def Parameters.checkRoom (parameters : Parameters) : Except Fault Unit :=
  match parameters.validate with
  | .error _ => .ok ()
  | .ok () => reserve (parameters.peers + 1) contactWidth

namespace Epidemic

def firstRound : Nat := 1

/-- A fresh epidemic. More seeds than nodes are as many as the nodes. -/
def start (parameters : Parameters) : Except ParameterFault Epidemic :=
  match parameters.validate with
  | .error fault => .error fault
  | .ok () =>
      .ok
        { parameters
          population := Population.fresh parameters.size
          round := firstRound
          nodeCount := parameters.size
          seedCount := min parameters.policy.seedCount parameters.size
          converged := false }

/-- A fresh epidemic that keeps a contact list: the room for it is asked for first. -/
def create (parameters : Parameters) : Except Fault (Except ParameterFault Epidemic) := do
  parameters.checkRoom
  pure (start parameters)

/-- How contacts are drawn: the parameters of the moment over the sizes of the start. -/
def contactRule (epidemic : Epidemic) : ContactRule :=
  ContactRule.ofPolicy epidemic.parameters.policy epidemic.parameters.peers epidemic.nodeCount
    epidemic.seedCount

/-- One pass over the nodes; the counter grows if it comes to its end. -/
def pass (patience : Nat) : EStateM Halt (Epidemic × Stream) Unit
  | (epidemic, stream) =>
      let rule := epidemic.contactRule
      match epidemic with
      | { parameters, population, round, nodeCount, seedCount, converged } =>
          match Spread.visit rule patience nodeCount 0 { population, stream } with
          | .ok () { population, stream } =>
              let round := round + 1
              .ok () ({ parameters, population, round, nodeCount, seedCount, converged }, stream)
          | .error halt { population, stream } =>
              .error halt ({ parameters, population, round, nodeCount, seedCount, converged }, stream)

def isCapped (epidemic : Epidemic) : Bool :=
  match epidemic.parameters.maxRounds with
  | some cap => cap <= epidemic.round
  | none => false

def shortfall (epidemic : Epidemic) : Shortfall :=
  { size := epidemic.parameters.size
    rounds := epidemic.round
    infected := epidemic.population.infected }

/-- Passes of one kind until the run ends, with the events so far, the latest first. -/
def runOver (advance : EStateM Halt (Epidemic × Stream) Unit) :
    Nat -> List RoundEvent -> Epidemic -> Stream -> Course
  | 0, events, epidemic, stream =>
      { events := events.reverse, ending := .halted .unfinished, epidemic, stream }
  | passes + 1, events, epidemic, stream =>
      match advance (epidemic, stream) with
      | .error halt (epidemic, stream) =>
          { events := events.reverse, ending := .halted halt, epidemic, stream }
      | .ok () (epidemic, stream) =>
          let events := .roundEnded epidemic.round epidemic.population.infected :: events
          -- Full infection comes before the cap.
          if epidemic.population.allInfected then
            { events := (.converged epidemic.round :: events).reverse
              ending := .converged epidemic.round
              epidemic := { epidemic with converged := true }
              stream }
          else if epidemic.isCapped then
            { events := events.reverse, ending := .capped epidemic.shortfall, epidemic, stream }
          else
            runOver advance passes events epidemic stream

def runFrom (patience : Nat) : Nat -> List RoundEvent -> Epidemic -> Stream -> Course :=
  runOver (pass patience)

/-- A run by passes of one kind. An epidemic that has converged makes none. -/
def runBy (advance : EStateM Halt (Epidemic × Stream) Unit) (passes : Nat) (epidemic : Epidemic)
    (stream : Stream) : Course :=
  if epidemic.converged then
    { events := [], ending := .converged epidemic.round, epidemic, stream }
  else
    runOver advance passes [] epidemic stream

def run (patience : Nat) (epidemic : Epidemic) (stream : Stream) : Course :=
  -- Passes and attempts have the same patience, so one number bounds a run.
  runBy (pass patience) patience epidemic stream

end Epidemic

inductive RunFault where
  | parameters (cause : ParameterFault)
  | capped (shortfall : Shortfall)
  deriving DecidableEq, Repr

def RunFault.message : RunFault -> String
  | .parameters cause => cause.message
  | .capped shortfall => shortfall.message

/-- One run of a fresh epidemic that has room for its contacts. -/
def simulate (patience : Nat) (parameters : Parameters) :
    EStateM Halt Stream (Except RunFault Nat) := fun stream =>
  match Epidemic.start parameters with
  | .error fault => .ok (.error (.parameters fault)) stream
  | .ok epidemic =>
      let course := epidemic.run patience stream
      match course.ending with
      | .converged rounds => .ok (.ok rounds) course.stream
      | .capped shortfall => .ok (.error (.capped shortfall)) course.stream
      | .halted halt => .error halt course.stream

/-- A simulation by itself. Without room for its contacts it draws nothing. A sweep asks for that room
once, for all of its trials. -/
def simulateInRoom (patience : Nat) (parameters : Parameters) :
    EStateM Halt Stream (Except RunFault Nat) := fun stream =>
  match parameters.checkRoom with
  | .error fault => .error (.fault fault) stream
  | .ok () => simulate patience parameters stream

end Rumour

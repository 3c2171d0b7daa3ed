import Rumour.Halt
import Rumour.Node
import Rumour.Room

set_option autoImplicit false

/-!
The infection state of a population: one flag per node, and the number of flags that are set. Flags are
only ever set. A step that meets a node outside the population stops there and keeps what it has done.
-/

namespace Rumour

structure Population where
  flags : Array Bool
  infected : Nat
  deriving DecidableEq, Repr

namespace Population

/-- The nodes below a size, of which only the origin is infected. -/
def fresh (size : Nat) : Population :=
  { flags := (Array.replicate size false).setIfInBounds NodeId.origin.index true, infected := 1 }

def flagWidth : Nat := 1

def ofSize (size : Nat) : Except Fault Population := do
  reserve size flagWidth
  if size = 0 then
    throw (.indexOutOfRange 0 NodeId.origin.index)
  pure (fresh size)

def size (population : Population) : Nat :=
  population.flags.size

def allInfected (population : Population) : Bool :=
  population.infected = population.size

def outside (population : Population) (node : NodeId) : Fault :=
  .indexOutOfRange population.size node.index

@[inline] def isInfected (population : Population) (node : NodeId) : Except Fault Bool :=
  match population.flags[node.index]? with
  | some flag => .ok flag
  | none => .error (population.outside node)

def infect (node : NodeId) : EStateM Fault Population Bool := fun population =>
  match population.isInfected node with
  | .error fault => .error fault population
  | .ok true => .ok false population
  | .ok false =>
      .ok true
        { flags := population.flags.setIfInBounds node.index true
          infected := population.infected + 1 }

def infectAll : List NodeId -> EStateM Fault Population Unit
  | [] => fun population => .ok () population
  | node :: rest => fun population =>
      match infect node population with
      | .ok _ population => infectAll rest population
      | .error fault population => .error fault population

def anyInfected (population : Population) : List NodeId -> Except Fault Bool
  | [] => .ok false
  | node :: rest =>
      match population.isInfected node with
      | .ok true => .ok true
      | .ok false => population.anyInfected rest
      | .error fault => .error fault

/-- One exchange between a node and its contacts: an infected node infects them all, a healthy one is
infected by any of them. -/
def exchange (node : NodeId) (contacts : List NodeId) : EStateM Fault Population Unit :=
  fun population =>
    match population.isInfected node with
    | .error fault => .error fault population
    | .ok true => infectAll contacts population
    | .ok false =>
        -- The node takes the rumour in but does not pass it on in this exchange.
        match population.anyInfected contacts with
        | .error fault => .error fault population
        | .ok true => infectAll [node] population
        | .ok false => .ok () population

def digits (population : Population) : String :=
  String.ofList (population.flags.toList.map fun flag => if flag then '1' else '0')

end Population

end Rumour

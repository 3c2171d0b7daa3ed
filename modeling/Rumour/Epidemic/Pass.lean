import Rumour.Epidemic.Contacts
import Rumour.Population

set_option autoImplicit false

/-!
Passes over a population. A pass visits nodes in ascending order; each draws its contacts and exchanges
with them at once, so that a node infected early in a pass infects others later in it.
-/

namespace Rumour

open Rumour.Random

structure Spread where
  population : Population
  stream : Stream
  deriving DecidableEq, Repr

namespace Spread

def nodeStep (rule : ContactRule) (patience : Nat) (node : NodeId) : EStateM Halt Spread Unit
  | { population, stream } =>
      match rule.drawContacts patience stream with
      | .error halt stream => .error halt { population, stream }
      | .ok contacts stream =>
          match Population.exchange node contacts population with
          | .ok () population => .ok () { population, stream }
          | .error fault population => .error (.fault fault) { population, stream }

def visit (rule : ContactRule) (patience : Nat) : Nat -> Nat -> EStateM Halt Spread Unit
  | 0, _ => pure ()
  | count + 1, index => do
      nodeStep rule patience { index }
      visit rule patience count (index + 1)

end Spread

end Rumour

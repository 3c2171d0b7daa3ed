import Rumour.Node
import Rumour.Parameters
import Rumour.Random.Coin
import Rumour.Random.Draw

set_option autoImplicit false

/-!
The contacts of one node step, drawn from the stream alone: the peers in order, then the coin of the
bias, then on its fall one seed node. The infection state has no part in it.
-/

namespace Rumour

open Rumour.Random

/-- The extra contact: the coin that decides on it, if its bias has one, and the dial over the
seeds. -/
structure SeedContact where
  coin : Option Coin
  dial : Dial
  deriving DecidableEq, Repr

structure ContactRule where
  peers : Nat
  dial : Dial
  seedContact : Option SeedContact
  deriving DecidableEq, Repr

namespace ContactRule

def ofPolicy (policy : Policy) (peers nodeCount seedCount : Nat) : ContactRule :=
  { peers
    dial := Dial.below nodeCount
    seedContact :=
      match policy with
      | .uniform => none
      | .seedBiased _ bias => some { coin := Coin.ofBias bias, dial := Dial.below seedCount } }

/-- Puts a number of peers on top of the contacts drawn so far, the latest first. -/
def drawPeers (dial : Dial) (patience : Nat) : Nat -> List NodeId -> EStateM Halt Stream (List NodeId)
  | 0, drawn => pure drawn
  | count + 1, drawn => do
      let index <- dial.draw patience
      drawPeers dial patience count ({ index } :: drawn)

def drawSeedContact (patience : Nat) (drawn : List NodeId) :
    Option SeedContact -> EStateM Halt Stream (List NodeId)
  | none => pure drawn
  | some contact => do
      if <- Coin.flip? contact.coin then
        let index <- contact.dial.draw patience
        pure ({ index } :: drawn)
      else
        pure drawn

/-- All contacts of one node step, in the order in which they are drawn. -/
def drawContacts (rule : ContactRule) (patience : Nat) : EStateM Halt Stream (List NodeId) := do
  let peers <- drawPeers rule.dial patience rule.peers []
  let drawn <- drawSeedContact patience peers rule.seedContact
  pure drawn.reverse

end ContactRule

end Rumour

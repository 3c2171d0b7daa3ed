import Rumour.Epidemic.Run

set_option autoImplicit false

/-!
Round counters that are machine words. The counter of an epidemic can be set to any word of 64 bits, and behind
the greatest one it starts over at zero: that is how sums go where overflow is not checked, and where it is
checked the pass is a fault. A simulation begins at one and never comes so far, so it is counted without a bound.
-/

namespace Rumour.Epidemic

open Rumour.Random

def inWord (epidemic : Epidemic) : Epidemic :=
  { epidemic with round := epidemic.round % UInt64.size }

def wordPass (patience : Nat) : EStateM Halt (Epidemic × Stream) Unit := fun state =>
  match pass patience state with
  | .ok () (epidemic, stream) => .ok () (epidemic.inWord, stream)
  | .error halt left => .error halt left

def wordRun (patience : Nat) (epidemic : Epidemic) (stream : Stream) : Course :=
  runBy (wordPass patience) patience epidemic stream

end Rumour.Epidemic

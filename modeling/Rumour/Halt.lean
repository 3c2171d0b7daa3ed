set_option autoImplicit false

/-!
Reasons why an action gives no value. A fault is a request that has no meaning; an unfinished action
used up the patience it was given. Neither is an ordinary failure, which is a value of its own.
-/

namespace Rumour

inductive Fault where
  | indexOutOfRange (size index : Nat)
  | emptyRange
  | invalidProbability
  | noRoom
  deriving DecidableEq, Repr

def Fault.message : Fault -> String
  | .indexOutOfRange size index =>
      s!"index out of bounds: the len is {size} but the index is {index}"
  | .emptyRange => "cannot sample empty range"
  | .invalidProbability => "called `Result::unwrap()` on an `Err` value: InvalidProbability"
  | .noRoom => "capacity overflow"

inductive Halt where
  | fault (cause : Fault)
  | unfinished
  deriving DecidableEq, Repr

end Rumour

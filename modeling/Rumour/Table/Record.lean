set_option autoImplicit false

/-!
Records of a sweep: the outcome of one trial.
-/

namespace Rumour

structure Record where
  size : Nat
  seeded : Bool
  rounds : Nat
  deriving DecidableEq, Repr

end Rumour

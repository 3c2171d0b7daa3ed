set_option autoImplicit false

/-!
Arithmetic ranges of population sizes, from a start by a step to a stop that is left out. The sizes are
found by stepping, their number in closed form. A step of zero yields no size.
-/

namespace Rumour

structure Sizes where
  start : Nat
  stop : Nat
  step : Nat
  deriving DecidableEq, Repr

namespace Sizes

def count (sizes : Sizes) : Nat :=
  -- A quotient rounded up; with a step of one it is the plain difference.
  if sizes.step = 0 || sizes.stop <= sizes.start then 0
  else (sizes.stop - sizes.start + (sizes.step - 1)) / sizes.step

def isEmpty (sizes : Sizes) : Bool :=
  sizes.count = 0

def stepFrom (sizes : Sizes) : Nat -> Nat -> Array Nat -> Array Nat
  | 0, _, seen => seen
  | limit + 1, size, seen =>
      if 0 < sizes.step && size < sizes.stop then
        stepFrom sizes limit (size + sizes.step) (seen.push size)
      else
        seen

theorem stepFrom_eq (sizes : Sizes) (limit size : Nat) (seen : Array Nat) :
    sizes.stepFrom limit size seen = seen ++ sizes.stepFrom limit size #[] := by
  induction limit generalizing size seen with
  | zero => simp [stepFrom]
  | succ limit ih =>
      simp only [stepFrom]
      split
      next =>
        rw [ih, ih (size + sizes.step) (#[].push size)]
        simp
      next => simp

def first (sizes : Sizes) (limit : Nat) : List Nat :=
  (sizes.stepFrom limit sizes.start #[]).toList

/-- All sizes in ascending order; there are never more than numbers from start to stop. -/
def toList (sizes : Sizes) : List Nat :=
  sizes.first (sizes.stop - sizes.start)

def last? (sizes : Sizes) : Option Nat :=
  if sizes.isEmpty then none else some (sizes.start + (sizes.count - 1) * sizes.step)

end Sizes

end Rumour

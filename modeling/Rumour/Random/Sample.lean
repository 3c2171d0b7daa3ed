import Rumour.Binary.Binary64
import Rumour.Random.Draw

set_option autoImplicit false

/-!
Plain samples: a word read as a truth value, as an integer of some kind, or as a fraction of one; and
integers of a kind drawn evenly from a range.
-/

namespace Rumour.Random

open Rumour.Binary

structure IntegerKind where
  bits : Nat
  signed : Bool
  deriving DecidableEq, Repr

namespace IntegerKind

/-- Small kinds draw half a word. -/
def width (kind : IntegerKind) : Width :=
  if kind.bits <= 32 then .half else .whole

def read (kind : IntegerKind) (number : Nat) : Int :=
  if kind.signed then Int.bmod number (1 <<< kind.bits : Nat) else (number % (1 <<< kind.bits) : Nat)

def sample (kind : IntegerKind) : EStateM Halt Stream Int := fun stream =>
  .ok (kind.read (kind.width.number stream)) stream.advance

/-- An integer from the lower to the upper end, both included. The range of all integers of the
kind needs no dial: there the number itself is the answer. -/
def sampleRange (kind : IntegerKind) (patience : Nat) (lower upper : Int) : EStateM Halt Stream Int :=
  if upper < lower then
    throw (.fault .emptyRange)
  else if (upper - lower + 1).toNat = kind.width.count then
    -- Every number of the width is in the range.
    kind.sample
  else do
    let dial := Dial.ofSize kind.width (upper - lower + 1).toNat
    let value <- dial.draw patience
    pure (lower + value)

end IntegerKind

def sampleBool : EStateM Halt Stream Bool := fun stream =>
  .ok (2147483648 <= Width.half.number stream) stream.advance

/-- The magnitude of an even fraction of one in a format: as many leading bits of a number of the
width as the format's significands have. -/
def sampleFraction (format : Format) (width : Width) : EStateM Halt Stream Nat := fun stream =>
  let bits := format.fractionBits + 1
  let leading : Nat := width.number stream >>> (width.bits - bits)
  .ok (format.nearest (leading * (2 : Rat) ^ (-(bits : Int)))) stream.advance

end Rumour.Random

import Rumour.Binary.Format

set_option autoImplicit false

/-!
Numbers of the 64-bit binary format, kept as their bits. No machine arithmetic is involved: every
question about a number is settled on its magnitude, whose order is the order of the bits.
-/

namespace Rumour.Binary

structure Binary64 where
  bits : UInt64
  deriving DecidableEq, Repr

namespace Binary64

def magnitude (number : Binary64) : Nat :=
  number.bits.toNat % 9223372036854775808

def isNegative (number : Binary64) : Bool :=
  number.bits.toNat >= 9223372036854775808

def isNaN (number : Binary64) : Bool :=
  Format.double.infinity < number.magnitude

def isInfinite (number : Binary64) : Bool :=
  number.magnitude = Format.double.infinity

def ofMagnitude (negative : Bool) (magnitude : Nat) : Binary64 :=
  { bits := UInt64.ofNat (if negative then 9223372036854775808 + magnitude else magnitude) }

def nan : Binary64 := ofMagnitude false 9221120237041090560

def infinity (negative : Bool) : Binary64 :=
  ofMagnitude negative Format.double.infinity

def unit : Nat := 4607182418800017408

/-- Whether a number lies between zero and one, both included; a zero of either sign does. -/
def inUnitInterval (number : Binary64) : Bool :=
  number.magnitude = 0 || (!number.isNegative && number.magnitude <= unit)

def ofRational (negative : Bool) (size : Rat) : Binary64 :=
  ofMagnitude negative (Format.double.nearest size)

/-- The number nearest to digits times a power of ten. Beyond four hundred places the answer is
infinity or zero whatever the digits are. -/
def ofDecimal (negative : Bool) (digits : Nat) (exponent : Int) : Binary64 :=
  if digits = 0 || exponent + (digits.log2 + 1 : Nat) < -400 then
    ofMagnitude negative 0
  else if 400 < exponent then
    infinity negative
  else
    ofRational negative (digits * (10 : Rat) ^ exponent)

end Binary64

end Rumour.Binary

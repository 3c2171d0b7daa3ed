set_option autoImplicit false

/-!
Binary interchange formats and exact rounding into them. A magnitude is kept as its bits without the
sign: a significand counted in units of a power of two, subnormal below the least normal exponent.
`nearest` rounds any rational to the nearest magnitude, a half to the even one, and goes to infinity
past the greatest.
-/

namespace Rumour.Binary

structure Format where
  fractionBits : Nat
  exponentBits : Nat
  deriving DecidableEq, Repr

namespace Format

def single : Format := { fractionBits := 23, exponentBits := 8 }

def double : Format := { fractionBits := 52, exponentBits := 11 }

/-- One more than the greatest fraction; the hidden leading bit of a normal significand. -/
def hiddenBit (format : Format) : Nat :=
  1 <<< format.fractionBits

/-- The magnitude of infinity; whatever lies above is no number. -/
def infinity (format : Format) : Nat :=
  ((1 <<< format.exponentBits) - 1) <<< format.fractionBits

/-- The exponent of two of the unit in which the least magnitudes are counted. -/
def leastExponent (format : Format) : Int :=
  3 - (1 <<< (format.exponentBits - 1) : Nat) - format.fractionBits - 1

/-- The significand and the exponent of two of a finite magnitude. -/
def parts (format : Format) (magnitude : Nat) : Nat × Int :=
  let fraction := magnitude % format.hiddenBit
  let field := magnitude / format.hiddenBit
  if field = 0 then
    (fraction, format.leastExponent)
  else
    (format.hiddenBit + fraction, format.leastExponent + field - 1)

def value (format : Format) (magnitude : Nat) : Rat :=
  let (significand, exponent) := format.parts magnitude
  significand * (2 : Rat) ^ exponent

/-- The greatest exponent of two whose power is at most a positive rational. -/
def floorLog2 (number : Rat) : Int :=
  let guess : Int := number.num.natAbs.log2 - number.den.log2
  if (2 : Rat) ^ guess <= number then guess else guess - 1

/-- The natural number nearest to a rational, a half going to the even one. -/
def roundHalfEven (number : Rat) : Nat :=
  let below := number.floor.toNat
  let rest := number - below
  if rest < 1 / 2 then below
  else if 1 / 2 < rest then below + 1
  else below + below % 2

def nearest (format : Format) (number : Rat) : Nat :=
  if number <= 0 then
    0
  else
    -- The unit in which the significand is counted; subnormal numbers share the least one.
    let exponent := max (floorLog2 number - format.fractionBits) format.leastExponent
    let significand := roundHalfEven (number / (2 : Rat) ^ exponent)
    -- A significand that rounds up to the next power of two carries into the exponent by itself.
    min format.infinity
      ((exponent - format.leastExponent).toNat * format.hiddenBit + significand)

end Format

end Rumour.Binary

import Rumour.Binary.Binary64

set_option autoImplicit false

/-!
Shortest decimal text. Of all decimals that read back as a number, the text shows one on the coarsest
decimal grid that has any, the nearest of those, and the upper one of two equally near. The text is
positional for every exponent, and a whole number has no point.
-/

namespace Rumour.Binary

structure Decimal where
  digits : Nat
  exponent : Int
  deriving DecidableEq, Repr

namespace Decimal

def value (decimal : Decimal) : Rat :=
  decimal.digits * (10 : Rat) ^ decimal.exponent

/-- Positional text: the digits with a point among them, or zeros on the side that lacks digits. -/
def text (decimal : Decimal) : String :=
  let digits := Nat.toDigits 10 decimal.digits
  if 0 <= decimal.exponent then
    String.ofList (digits ++ List.replicate decimal.exponent.toNat '0')
  else
    let places := (-decimal.exponent).toNat
    let padded := List.replicate (places + 1 - digits.length) '0' ++ digits
    String.ofList
      (padded.take (padded.length - places) ++ '.' :: padded.drop (padded.length - places))

end Decimal

structure RoundingInterval where
  lower : Rat
  upper : Rat
  closed : Bool

namespace RoundingInterval

/-- The ends lie halfway to the neighbours and belong to an even magnitude. -/
def ofMagnitude (format : Format) (magnitude : Nat) : RoundingInterval :=
  let value := format.value magnitude
  let above := (2 : Rat) ^ (format.parts magnitude).2
  let below := value - format.value (magnitude - 1)
  { lower := value - below / 2
    upper := value + above / 2
    closed := magnitude % 2 = 0 }

def contains (interval : RoundingInterval) (number : Rat) : Bool :=
  if interval.closed then
    interval.lower <= number && number <= interval.upper
  else
    interval.lower < number && number < interval.upper

end RoundingInterval

/-- The point of a decimal grid that an interval's middle value shows as, if the interval has one. -/
def nearestOnGrid (interval : RoundingInterval) (value : Rat) (exponent : Int) : Option Decimal :=
  let unit := (10 : Rat) ^ exponent
  let below : Decimal := { digits := (value / unit).floor.toNat, exponent }
  let above : Decimal := { digits := below.digits + 1, exponent }
  match interval.contains below.value, interval.contains above.value with
  | true, true => some (if value - below.value < above.value - value then below else above)
  | true, false => some below
  | false, true => some above
  | false, false => none

def searchGrids (interval : RoundingInterval) (value : Rat) : Nat -> Int -> Option Decimal
  | 0, _ => none
  | tries + 1, exponent =>
      match nearestOnGrid interval value exponent with
      | some decimal => some decimal
      | none => searchGrids interval value tries (exponent - 1)

namespace Binary64

/-- The shortest decimal of a finite magnitude that is not zero. Every such magnitude lies below
ten to the 309 and is told apart by seventeen digits, so the grids from there down suffice. -/
def shortest? (number : Binary64) : Option Decimal :=
  searchGrids (RoundingInterval.ofMagnitude .double number.magnitude)
    (Format.double.value number.magnitude) 660 309

def text (number : Binary64) : String :=
  if number.isNaN then
    "NaN"
  else
    let sign := if number.isNegative then "-" else ""
    if number.isInfinite then
      sign ++ "inf"
    else if number.magnitude = 0 then
      sign ++ "0"
    else
      match number.shortest? with
      | some decimal => sign ++ decimal.text
      | none => sign

end Binary64

end Rumour.Binary

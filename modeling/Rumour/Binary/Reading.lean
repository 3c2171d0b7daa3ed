import Rumour.Binary.Binary64

set_option autoImplicit false

/-!
Numbers in text: an optional sign, then infinity or not-a-number by name in any case, or digits
with an optional point and an optional exponent. At least one digit stands beside the point, and the
exponent has at least one digit of its own.
-/

namespace Rumour.Binary

inductive NumberFault where
  | empty
  | invalid
  deriving DecidableEq, Repr

def NumberFault.message : NumberFault -> String
  | .empty => "cannot parse float from empty string"
  | .invalid => "invalid float literal"

def digitsValue (digits : List Char) : Nat :=
  digits.foldl (fun value digit => value * 10 + (digit.toNat - '0'.toNat)) 0

def splitSign : List Char -> Bool × List Char
  | '-' :: rest => (true, rest)
  | '+' :: rest => (false, rest)
  | text => (false, text)

/-- The exponent that follows the digits: nothing, or a letter and a signed whole number. -/
def readExponent : List Char -> Option Int
  | [] => some 0
  | letter :: rest =>
      let (negative, digits) := splitSign rest
      if (letter = 'e' || letter = 'E') && !digits.isEmpty && digits.all Char.isDigit then
        some (if negative then -digitsValue digits else digitsValue digits)
      else
        none

namespace Binary64

/-- A number without its sign and names: digits, point, digits, exponent. -/
def readDigits? (negative : Bool) (text : List Char) : Option Binary64 :=
  let whole := text.takeWhile Char.isDigit
  let rest := text.dropWhile Char.isDigit
  let afterPoint :=
    match rest with
    | '.' :: after => after
    | other => other
  let fraction := if rest.head? = some '.' then afterPoint.takeWhile Char.isDigit else []
  let tail := if rest.head? = some '.' then afterPoint.dropWhile Char.isDigit else rest
  if whole.isEmpty && fraction.isEmpty then
    none
  else
    (readExponent tail).map fun exponent =>
      ofDecimal negative (digitsValue (whole ++ fraction)) (exponent - fraction.length)

def read (text : List Char) : Except NumberFault Binary64 :=
  if text.isEmpty then
    throw .empty
  else
    let (negative, body) := splitSign text
    let name := body.map Char.toLower
    if name = "inf".toList || name = "infinity".toList then
      pure (infinity negative)
    else if name = "nan".toList then
      pure nan
    else
      match readDigits? negative body with
      | some number => pure number
      | none => throw .invalid

end Binary64

end Rumour.Binary

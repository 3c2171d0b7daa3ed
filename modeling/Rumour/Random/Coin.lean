import Rumour.Halt
import Rumour.Binary.Binary64
import Rumour.Random.Stream

set_option autoImplicit false

/-!
Biased coins. A bias is brought into the unit interval first. A coin of bias one falls without a draw;
any other one compares the next word with its bias scaled to the words. No coin has a bias that is not
a number (`ofBias_eq_none_iff`).
-/

namespace Rumour.Random

open Rumour.Binary

inductive Coin where
  | always
  | below (threshold : UInt64)
  deriving DecidableEq, Repr

namespace Coin

/-- A magnitude below one scaled to the words, rounded down. -/
def threshold (magnitude : Nat) : UInt64 :=
  UInt64.ofNat (Format.double.value magnitude * 18446744073709551616).floor.toNat

def ofBias (bias : Binary64) : Option Coin :=
  if bias.isNaN then none
  -- A negative bias, a negative zero too, never falls but still spends a word.
  else if bias.isNegative then some (.below 0)
  else if Binary64.unit <= bias.magnitude then some .always
  else some (.below (threshold bias.magnitude))

theorem ofBias_eq_none_iff (bias : Binary64) : ofBias bias = none <-> bias.isNaN = true := by
  unfold ofBias
  by_cases missing : bias.isNaN <;> by_cases negative : bias.isNegative <;>
    by_cases large : Binary64.unit <= bias.magnitude <;> simp [missing, negative, large]

def flip : Coin -> EStateM Halt Stream Bool
  | .always => fun stream => .ok true stream
  | .below threshold => fun stream => .ok (stream.word < threshold) stream.advance

def flip? : Option Coin -> EStateM Halt Stream Bool
  | some coin => coin.flip
  | none => throw (.fault .invalidProbability)

end Coin

end Rumour.Random

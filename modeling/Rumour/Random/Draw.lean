import Rumour.Halt
import Rumour.Random.Stream

set_option autoImplicit false

/-!
Draws of integers. A dial turns words of a width into evenly spread values below its size: the product
of the word and the size has the value in its upper half, and a word whose lower half lies beyond the
dial's zone is thrown away. How many words are thrown away has no bound, so a draw is given a patience.
Main statements: a value is below the size (`draw_lt`), and more patience finds the same value
(`draw_add`).
-/

namespace Rumour.Random

/-- How much of a stream word a draw uses: its upper half or all of it. -/
inductive Width where
  | half
  | whole
  deriving DecidableEq, Repr

namespace Width

def bits : Width -> Nat
  | .half => 32
  | .whole => 64

def count : Width -> Nat
  | .half => 4294967296
  | .whole => 18446744073709551616

def number (stream : Stream) : Width -> Nat
  | .half => (stream.word >>> 32).toNat
  | .whole => stream.word.toNat

theorem number_lt (stream : Stream) (width : Width) : width.number stream < width.count := by
  cases width with
  | half =>
      have bound := stream.word.toNat_lt
      have amount : (32 : UInt64).toNat % 64 = 32 := by decide
      simp only [number, count, UInt64.toNat_shiftRight, amount, Nat.shiftRight_eq_div_pow]
      omega
  | whole => exact stream.word.toNat_lt

end Width

/-- A dial knows its size and the last lower half that it keeps. -/
structure Dial where
  width : Width
  size : Nat
  zone : Nat
  deriving DecidableEq, Repr

namespace Dial

/-- The zone of a size: the size moved up to the top of the width, less one. -/
def zoneOf (width : Width) (size : Nat) : Nat :=
  (size <<< (width.bits - (size.log2 + 1))) - 1

def ofSize (width : Width) (size : Nat) : Dial :=
  { width, size, zone := zoneOf width size }

def below (count : Nat) : Dial :=
  ofSize .half count

@[inline] def turn? (dial : Dial) (number : Nat) : Option Nat :=
  let product := number * dial.size
  if product % dial.width.count <= dial.zone then
    some (product / dial.width.count)
  else
    none

theorem turn?_lt (dial : Dial) (number value : Nat) (positive : 0 < dial.size)
    (within : number < dial.width.count) (kept : dial.turn? number = some value) :
    value < dial.size := by
  simp only [turn?] at kept
  split at kept
  next =>
    cases kept
    exact Nat.div_lt_of_lt_mul (Nat.mul_lt_mul_of_pos_right within positive)
  next => cases kept

def spin (dial : Dial) : Nat -> EStateM Halt Stream Nat
  | 0 => fun stream => .error .unfinished stream
  | patience + 1 => fun stream =>
      match dial.turn? (dial.width.number stream) with
      | some value => .ok value stream.advance
      | none => spin dial patience stream.advance

theorem spin_lt (dial : Dial) (positive : 0 < dial.size) (patience value : Nat)
    (before after : Stream) (drawn : dial.spin patience before = .ok value after) :
    value < dial.size := by
  induction patience generalizing before with
  | zero => simp [spin] at drawn
  | succ patience ih =>
      simp only [spin] at drawn
      split at drawn
      next kept =>
        cases drawn
        exact dial.turn?_lt _ _ positive (dial.width.number_lt before) kept
      next => exact ih _ drawn

theorem spin_add (dial : Dial) (patience more value : Nat) (before after : Stream)
    (drawn : dial.spin patience before = .ok value after) :
    dial.spin (patience + more) before = .ok value after := by
  induction patience generalizing before with
  | zero => simp [spin] at drawn
  | succ patience ih =>
      simp only [spin] at drawn
      simp only [Nat.succ_add, spin]
      split at drawn
      next kept => simpa [kept] using drawn
      next lost => simpa [lost] using ih _ drawn

/-- A value below the dial's size; a dial of size nothing has none. -/
def draw (dial : Dial) (patience : Nat) : EStateM Halt Stream Nat :=
  if dial.size = 0 then throw (.fault .emptyRange) else dial.spin patience

theorem draw_lt (dial : Dial) (patience value : Nat) (before after : Stream)
    (drawn : dial.draw patience before = .ok value after) : value < dial.size := by
  unfold draw at drawn
  split at drawn
  next => cases drawn
  next positive => exact spin_lt dial (by omega) patience value before after drawn

theorem draw_add (dial : Dial) (patience more value : Nat) (before after : Stream)
    (drawn : dial.draw patience before = .ok value after) :
    dial.draw (patience + more) before = .ok value after := by
  unfold draw at *
  split at drawn
  next => cases drawn
  next positive =>
    rw [if_neg positive]
    exact spin_add dial patience more value before after drawn

end Dial

end Rumour.Random

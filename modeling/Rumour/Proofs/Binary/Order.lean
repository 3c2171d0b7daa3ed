import Mathlib.Algebra.Order.Field.Rat
import Mathlib.Order.Monotone.Basic
import Rumour.Binary.Binary64

set_option autoImplicit false

/-!
The order of binary numbers. A magnitude is a natural number of the unit in which the least magnitudes are
counted, and that number grows with the bits: so the order of the bits is the order of the values, and whether a
number lies between zero and one is settled on its bits (`inUnitInterval_iff`).
-/

namespace Rumour.Binary

namespace Format

variable (format : Format)

theorem hiddenBit_pos : 0 < format.hiddenBit := by
  rw [hiddenBit, Nat.one_shiftLeft]
  exact Nat.two_pow_pos format.fractionBits

/-- A magnitude of a field and a fraction, counted in the unit of the least ones. -/
def unitsOf (fraction : Nat) : Nat -> Nat
  | 0 => fraction
  | field + 1 => (format.hiddenBit + fraction) * 2 ^ field

def units (magnitude : Nat) : Nat :=
  format.unitsOf (magnitude % format.hiddenBit) (magnitude / format.hiddenBit)

theorem value_eq_units (magnitude : Nat) :
    format.value magnitude = format.units magnitude * (2 : Rat) ^ format.leastExponent := by
  simp only [value, parts, units]
  cases magnitude / format.hiddenBit with
  | zero => rfl
  | succ field =>
      have exponent : format.leastExponent + (field + 1 : Nat) - 1 = field + format.leastExponent := by
        omega
      have twoPos : (2 : Rat) ≠ 0 := by decide
      simp only [Nat.succ_ne_zero, if_false, exponent, Rat.zpow_add twoPos, Rat.zpow_natCast, unitsOf]
      push_cast
      rw [Rat.mul_assoc]

theorem units_eq {field fraction : Nat} (within : fraction < format.hiddenBit) :
    format.units (format.hiddenBit * field + fraction) = format.unitsOf fraction field := by
  rw [units, Nat.mul_add_mod, Nat.mod_eq_of_lt within, Nat.mul_add_div format.hiddenBit_pos,
    Nat.div_eq_of_lt within, Nat.add_zero]

theorem units_lt_succ (magnitude : Nat) : format.units magnitude < format.units (magnitude + 1) := by
  have positive := format.hiddenBit_pos
  have within := Nat.mod_lt magnitude positive
  have split := Nat.div_add_mod magnitude format.hiddenBit
  generalize magnitude / format.hiddenBit = field at split
  generalize magnitude % format.hiddenBit = fraction at split within
  subst split
  by_cases carries : fraction + 1 = format.hiddenBit
  next =>
    -- The greatest fraction goes over into the next field.
    have next : format.units (format.hiddenBit * (field + 1) + 0) = format.unitsOf 0 (field + 1) :=
      format.units_eq positive
    rw [Nat.mul_succ, Nat.add_zero, ← carries, ← Nat.add_assoc, carries] at next
    rw [next, format.units_eq within]
    cases field with
    | zero => simp [unitsOf, within]
    | succ field =>
        simp only [unitsOf, Nat.add_zero, Nat.pow_succ]
        have scaled := Nat.mul_lt_mul_of_pos_right (by omega : format.hiddenBit + fraction < format.hiddenBit * 2)
          (Nat.two_pow_pos field)
        rwa [Nat.mul_right_comm, Nat.mul_assoc] at scaled
  next =>
    rw [Nat.add_assoc, format.units_eq within, format.units_eq (by omega)]
    cases field with
    | zero => exact Nat.lt_succ_self fraction
    | succ field => exact Nat.mul_lt_mul_of_pos_right (by omega) (Nat.two_pow_pos field)

theorem units_strictMono : StrictMono format.units :=
  strictMono_nat_of_lt_succ format.units_lt_succ

theorem value_strictMono : StrictMono format.value := by
  intro less more below
  have unit : (0 : Rat) < (2 : Rat) ^ format.leastExponent := Rat.zpow_pos (by decide)
  rw [value_eq_units, value_eq_units]
  exact Rat.mul_lt_mul_of_pos_right (Rat.natCast_lt_natCast.2 (format.units_strictMono below)) unit

theorem value_zero : format.value 0 = 0 := by
  rw [value_eq_units]
  simp [units, unitsOf]

end Format

namespace Binary64

/-- The number that the bits stand for. An infinity counts as the power of two behind the greatest number. -/
def value (number : Binary64) : Rat :=
  if number.isNegative then -Format.double.value number.magnitude
  else Format.double.value number.magnitude

theorem value_unit : Format.double.value unit = 1 := by decide +kernel

/-- Of the numbers in the unit interval only a zero may have a sign, and none of them is missing. -/
theorem inUnitInterval_iff (number : Binary64) :
    number.inUnitInterval = true ↔ number.isNaN = false ∧ 0 ≤ number.value ∧ number.value ≤ 1 := by
  have order (less more : Nat) : Format.double.value less ≤ Format.double.value more ↔ less ≤ more :=
    Format.double.value_strictMono.le_iff_le
  have nonneg : 0 ≤ Format.double.value number.magnitude := by
    rw [← Format.double.value_zero, order]
    exact Nat.zero_le _
  have small : Format.double.value number.magnitude ≤ 1 ↔ number.magnitude ≤ unit := by
    rw [← value_unit, order]
  have none : Format.double.value number.magnitude ≤ 0 ↔ number.magnitude = 0 := by
    rw [← Format.double.value_zero, order, Nat.le_zero]
  have present : number.magnitude ≤ unit → number.isNaN = false := by
    have ends : unit ≤ Format.double.infinity := by decide
    intro below
    simp only [isNaN, decide_eq_false_iff_not]
    omega
  simp only [inUnitInterval, value, Bool.or_eq_true, decide_eq_true_eq, Bool.and_eq_true,
    Bool.not_eq_true']
  cases number.isNegative with
  | false =>
      simp only [Bool.false_eq_true, if_false, true_and, nonneg, small]
      constructor
      · intro within
        have below : number.magnitude ≤ unit := by omega
        exact ⟨present below, below⟩
      · rintro ⟨_, below⟩
        exact .inr below
  | true =>
      have sign : 0 ≤ -Format.double.value number.magnitude ↔ number.magnitude = 0 := by
        rw [← none]
        exact neg_nonneg
      simp only [if_true, Bool.true_eq_false, false_and, or_false, sign]
      constructor
      · intro zero
        refine ⟨present (by omega), zero, ?_⟩
        rw [zero, Format.double.value_zero]
        decide
      · exact fun within => within.2.1

end Binary64

end Rumour.Binary

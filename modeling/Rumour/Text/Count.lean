set_option autoImplicit false

/-!
Counts in text: written in decimal digits without leading zeros, read from one or more digits after an
optional plus sign, as long as they stay below the limit of 64 bits. Reading goes from left to right, so
a digit that passes the limit is reported before a bad character that follows it. Main statement:
`read_write`, a count below the limit is read from its digits.
-/

namespace Rumour.Text.Count

inductive CountFault where
  | empty
  | badDigit
  | tooLarge
  deriving DecidableEq, Repr

def CountFault.message : CountFault -> String
  | .empty => "cannot parse integer from empty string"
  | .badDigit => "invalid digit found in string"
  | .tooLarge => "number too large to fit in target type"

/-- One more than the greatest count. -/
def limit : Nat := 18446744073709551616

def write (count : Nat) : List Char :=
  Nat.toDigits 10 count

def digit? (character : Char) : Option Nat :=
  if character.isDigit then some (character.toNat - '0'.toNat) else none

def readDigits (value : Nat) : List Char -> Except CountFault Nat
  | [] => .ok value
  | character :: rest =>
      match digit? character with
      | none => .error .badDigit
      | some digit =>
          -- The value only grows, so the first one past the limit decides.
          let next := value * 10 + digit
          if next < limit then readDigits next rest else .error .tooLarge

def read : List Char -> Except CountFault Nat
  | [] => .error .empty
  | ['+'] => .error .badDigit
  | '+' :: digits => readDigits 0 digits
  | digits => readDigits 0 digits

theorem digit?_digitChar (digit : Nat) (small : digit < 10) : digit? digit.digitChar = some digit := by
  match digit, small with
  | 0, _ | 1, _ | 2, _ | 3, _ | 4, _ | 5, _ | 6, _ | 7, _ | 8, _ | 9, _ => rfl

theorem readDigits_append (value : Nat) (front back : List Char) :
    readDigits value (front ++ back) =
      (readDigits value front).bind fun before => readDigits before back := by
  induction front generalizing value with
  | nil => rfl
  | cons character rest ih =>
      simp only [List.cons_append, readDigits]
      split
      next => rfl
      next =>
        split
        next => exact ih _
        next => rfl

theorem readDigits_write (count : Nat) (small : count < limit) :
    readDigits 0 (write count) = .ok count := by
  induction count using Nat.strongRecOn with
  | ind count ih =>
      by_cases single : count < 10
      next =>
        simp only [write, Nat.toDigits_of_lt_base single, readDigits, digit?_digitChar count single]
        simp [small]
      next =>
        have before := ih (count / 10) (by omega) (by omega)
        have last := digit?_digitChar (count % 10) (by omega)
        have whole : count / 10 * 10 + count % 10 = count := by omega
        rw [write, Nat.toDigits_eq_if (by decide), if_neg single, readDigits_append]
        rw [write] at before
        simp [before, Except.bind, readDigits, last, whole, small]

theorem isDigit_of_mem_write (count : Nat) (character : Char) (written : character ∈ write count) :
    character.isDigit = true :=
  Nat.isDigit_of_mem_toDigits (by decide) (by decide) written

theorem read_write (count : Nat) (small : count < limit) : read (write count) = .ok count := by
  have digits := isDigit_of_mem_write count
  have value := readDigits_write count small
  generalize written : write count = text at digits value
  match text with
  | [] =>
      have nonempty : 0 < (write count).length := Nat.length_toDigits_pos
      simp [written] at nonempty
  | '+' :: _ =>
      have digit := digits '+' List.mem_cons_self
      simp at digit
  | head :: rest =>
      unfold read
      split
      next h => cases h
      next h =>
        cases h
        have digit := digits '+' List.mem_cons_self
        simp at digit
      next h =>
        cases h
        have digit := digits '+' List.mem_cons_self
        simp at digit
      next => exact value

end Rumour.Text.Count

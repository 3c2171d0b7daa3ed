import Rumour.Text.Count

set_option autoImplicit false

/-!
Texts that are counts: one or more digits, perhaps behind a plus sign, of a value below the limit. Zeros may
lead. Just these are read, each to its value.
-/

namespace Rumour.Text.Count

/-- The value of some digits, the first of which has the greatest weight. -/
def valueOf (digits : List Char) : Nat :=
  Nat.ofDigitChars 10 digits 0

def AllDigits (digits : List Char) : Prop :=
  ∀ character ∈ digits, character.isDigit = true

inductive Spells : List Char → Nat → Prop where
  | bare {digits : List Char} (shown : digits ≠ []) (all : AllDigits digits)
      (small : valueOf digits < limit) : Spells digits (valueOf digits)
  | signed {digits : List Char} (shown : digits ≠ []) (all : AllDigits digits)
      (small : valueOf digits < limit) : Spells ('+' :: digits) (valueOf digits)

theorem valueOf_write (count : Nat) : valueOf (write count) = count :=
  Nat.ofDigitChars_toDigits (by decide) (by decide)

theorem write_ne_nil (count : Nat) : write count ≠ [] :=
  List.ne_nil_of_length_pos Nat.length_toDigits_pos

theorem spells_write {count : Nat} (small : count < limit) : Spells (write count) count := by
  have spelled : Spells (write count) (valueOf (write count)) :=
    .bare (write_ne_nil count) (isDigit_of_mem_write count) (by rwa [valueOf_write])
  rwa [valueOf_write] at spelled

/-- The first digits of a count are the digits of a count that is no greater. -/
theorem write_of_prefix {digits : List Char} (nonempty : digits ≠ []) {count : Nat}
    (begins : digits <+: write count) : ∃ shorter ≤ count, digits = write shorter := by
  induction count using Nat.strongRecOn with
  | ind count ih =>
      by_cases single : count < 10
      next =>
        have one : write count = [count.digitChar] := Nat.toDigits_of_lt_base single
        rw [one, List.prefix_cons_iff] at begins
        rcases begins with empty | ⟨rest, rfl, none⟩
        · exact absurd empty nonempty
        · exact ⟨count, Nat.le_refl count, by rw [one, List.prefix_nil.1 none]⟩
      next =>
        have last : write count = write (count / 10) ++ [(count % 10).digitChar] := by
          rw [write, Nat.toDigits_eq_if (by decide), if_neg single, write]
        rw [last, List.prefix_concat_iff] at begins
        rcases begins with whole | before
        · exact ⟨count, Nat.le_refl count, by rw [last, whole]⟩
        · obtain ⟨shorter, small, same⟩ := ih (count / 10) (by omega) before
          exact ⟨shorter, by omega, same⟩

theorem le_ofDigitChars (digits : List Char) (value : Nat) : value ≤ Nat.ofDigitChars 10 digits value := by
  induction digits generalizing value with
  | nil => exact Nat.le_refl value
  | cons character rest ih =>
      rw [Nat.ofDigitChars_cons]
      have more := ih (10 * value + (character.toNat - '0'.toNat))
      omega

theorem readDigits_eq_ok_iff {value : Nat} (small : value < limit) {digits : List Char} {count : Nat} :
    readDigits value digits = .ok count ↔
      AllDigits digits ∧ Nat.ofDigitChars 10 digits value = count ∧ count < limit := by
  induction digits generalizing value with
  | nil =>
      simp only [readDigits, Except.ok.injEq, AllDigits, Nat.ofDigitChars_nil]
      constructor
      · rintro rfl
        exact ⟨by simp, rfl, small⟩
      · exact fun spelled => spelled.2.1
  | cons character rest ih =>
      simp only [readDigits, digit?, AllDigits, List.forall_mem_cons, Nat.ofDigitChars_cons]
      cases digit : character.isDigit with
      | false => simp
      | true =>
          simp only [if_true, Nat.mul_comm value 10, true_and]
          split
          next within => exact ih within
          next beyond =>
            have more := le_ofDigitChars rest (10 * value + (character.toNat - '0'.toNat))
            constructor
            · intro refused
              cases refused
            · rintro ⟨_, rfl, within⟩
              omega

theorem read_eq_ok_iff {text : List Char} {count : Nat} : read text = .ok count ↔ Spells text count := by
  have zero : 0 < limit := by decide
  unfold read
  split
  next =>
    constructor
    · intro refused
      cases refused
    · intro spelled
      cases spelled with
      | bare shown => exact absurd rfl shown
  next =>
    constructor
    · intro refused
      cases refused
    · intro spelled
      cases spelled with
      | bare _ all => exact absurd (all '+' List.mem_cons_self) (by decide)
      | signed shown => exact absurd rfl shown
  next digits alone =>
    rw [readDigits_eq_ok_iff zero]
    constructor
    · rintro ⟨all, rfl, small⟩
      exact .signed (fun none => alone none) all small
    · intro spelled
      cases spelled with
      | bare _ all => exact absurd (all '+' List.mem_cons_self) (by decide)
      | signed _ all small => exact ⟨all, rfl, small⟩
  next digits empty alone signed =>
    rw [readDigits_eq_ok_iff zero]
    constructor
    · rintro ⟨all, rfl, small⟩
      exact .bare (fun none => empty none) all small
    · intro spelled
      cases spelled with
      | bare _ all small => exact ⟨all, rfl, small⟩
      | signed => exact absurd rfl (signed _)

theorem Spells.not_dashed {text : List Char} {count : Nat} (spelled : Spells text count) : text.head? ≠ some '-' := by
  intro dashed
  cases spelled with
  | signed => exact absurd dashed (by simp)
  | @bare digits shown all =>
      obtain ⟨rest, rfl⟩ := List.head?_eq_some_iff.1 dashed
      exact absurd (all '-' List.mem_cons_self) (by decide)

theorem not_spells_nil {count : Nat} : ¬ Spells [] count := by
  rw [← read_eq_ok_iff]
  simp [read]

end Rumour.Text.Count

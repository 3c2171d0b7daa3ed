import Rumour.Table.Layout

set_option autoImplicit false

/-!
The written form of a table as one string: the header line and, for each record, a line of its index from
zero, its size, its truth value and its rounds. Its bytes are those of the layout.
-/

namespace Rumour.Table

open Rumour.Text

def rowString (index : Nat) (record : Record) : String :=
  let seeded := if record.seeded then "True" else "False"
  s!"{index},{record.size},{seeded},{record.rounds}\n"

def headerString : String := ",n_servers,seeds,rounds\n"

def tableString (records : List Record) : String :=
  headerString ++ String.join (records.mapIdx rowString)

theorem toList_rowString (index : Nat) (record : Record) :
    (rowString index record).toList = recordLine index record := by
  have seeded : (if record.seeded then "True" else "False").toList = truthText record.seeded := by
    cases record.seeded <;> rfl
  have same : ∀ text : String, toString text = text := fun _ => rfl
  simp [rowString, same, seeded, recordLine, lineOf, recordFields, Count.write]

theorem toList_rowStrings (index : Nat) (records : List Record) :
    (String.join (records.mapIdx fun offset record => rowString (index + offset) record)).toList =
      recordLines index records := by
  induction records generalizing index with
  | nil => rfl
  | cons record rest ih =>
      have later := ih (index + 1)
      simp only [String.toList_join, List.mapIdx_cons, List.flatMap_cons, Nat.add_zero, toList_rowString,
        recordLines] at *
      rw [← later]
      simp only [Nat.add_assoc, Nat.add_comm 1]

theorem toList_tableString (records : List Record) : (tableString records).toList = tableText records := by
  have head : headerString.toList = headerLine := by decide
  have rows := toList_rowStrings 0 records
  simp only [Nat.zero_add] at rows
  simp only [tableString, String.toList_append, head, rows, tableText]

theorem encodeChar_eq (character : Char) :
    Utf8.encodeChar character = String.utf8EncodeChar character := by
  have bound : character.toNat < 0x110000 := by
    have valid := character.valid
    have same : character.toNat = character.val.toNat := rfl
    rw [same]
    cases valid <;> omega
  have code : character.val.toNat = character.toNat := rfl
  simp only [Utf8.encodeChar, Utf8.continuation, String.utf8EncodeChar, code]
  by_cases one : character.toNat < 0x80
  next =>
    have fits : character.toNat ≤ 0x7f := by omega
    rw [if_pos one, if_pos fits]
  have beyondOne : ¬ character.toNat ≤ 0x7f := by omega
  by_cases two : character.toNat < 0x800
  next =>
    have fits : character.toNat ≤ 0x7ff := by omega
    have lead : character.toNat / 64 % 0x20 + 0xc0 = 0xc0 + character.toNat / 64 := by omega
    rw [if_neg one, if_pos two, if_neg beyondOne, if_pos fits, lead]
    simp only [Nat.add_comm]
  have beyondTwo : ¬ character.toNat ≤ 0x7ff := by omega
  by_cases three : character.toNat < 0x10000
  next =>
    have fits : character.toNat ≤ 0xffff := by omega
    have lead : character.toNat / 4096 % 0x10 + 0xe0 = 0xe0 + character.toNat / 4096 := by omega
    rw [if_neg one, if_neg two, if_pos three, if_neg beyondOne, if_neg beyondTwo, if_pos fits, lead]
    simp only [Nat.add_comm]
  next =>
    have beyondThree : ¬ character.toNat ≤ 0xffff := by omega
    have lead : character.toNat / 262144 % 8 + 0xf0 = 0xf0 + character.toNat / 262144 := by omega
    rw [if_neg one, if_neg two, if_neg three, if_neg beyondOne, if_neg beyondTwo, if_neg beyondThree,
      lead]
    simp only [Nat.add_comm]

theorem encode_eq_bytes (text : String) : Utf8.encode text.toList = text.toUTF8.data.toList := by
  have encoded : text.toUTF8 = text.toList.utf8Encode := by
    rw [String.utf8Encode_toList, String.toUTF8_eq_toByteArray]
  have same : Utf8.encode text.toList = text.toList.flatMap String.utf8EncodeChar := by
    simp only [Utf8.encode, funext encodeChar_eq]
  rw [encoded, same, List.utf8Encode, List.data_toByteArray]

theorem tableBytes_eq (records : List Record) :
    tableBytes records = (tableString records).toUTF8.data.toList := by
  rw [tableBytes, ← toList_tableString, encode_eq_bytes]

end Rumour.Table

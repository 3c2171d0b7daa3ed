import Rumour.Proofs.Except
import Rumour.Proofs.Table.Splitting
import Rumour.Proofs.Table.Writing
import Rumour.Table.Reader

set_option autoImplicit false

/-!
Reading what was written. The layout of a table is a header line and a line for each record, all of plain
fields, so its rows are these lines; each field is read to what it was written from.
-/

namespace Rumour

open Rumour.Text Rumour.Storage

def Record.Fits (record : Record) : Prop :=
  record.size < Count.limit ∧ record.rounds < Count.limit

instance (record : Record) : Decidable record.Fits :=
  inferInstanceAs (Decidable (_ ∧ _))

namespace Table

/-- Records that fit and whose indices do, too. -/
def Fit (records : List Record) : Prop :=
  (∀ record ∈ records, record.Fits) ∧ records.length ≤ Count.limit

instance (records : List Record) : Decidable (Fit records) :=
  inferInstanceAs (Decidable (_ ∧ _))

def headerFields : List (List UInt8) :=
  (header.map String.toList).map Utf8.encode

def recordsFields : Nat -> List Record -> List (List (List UInt8))
  | _, [] => []
  | index, record :: rest =>
      (recordFields index record).map Utf8.encode :: recordsFields (index + 1) rest

/-! The layout in lines -/

theorem encode_lineOf (fields : List (List Char)) :
    Utf8.encode (lineOf fields) = lineBytes (fields.map Utf8.encode) := by
  have comma : Utf8.encode [','] = [Splitter.comma] := by decide
  have lineFeed : Utf8.encode ['\n'] = [Splitter.lineFeed] := by decide
  unfold lineOf lineBytes
  rw [encode_append, lineFeed]
  congr 1
  induction fields with
  | nil => rfl
  | cons field rest ih =>
      cases rest with
      | nil => simp [List.intercalate]
      | cons second rest =>
          simp only [List.intercalate, List.map_cons, List.intersperse_cons_cons, List.flatten_cons,
            encode_append, comma] at *
          rw [ih]

theorem encode_recordLines (index : Nat) (records : List Record) :
    Utf8.encode (recordLines index records) = (recordsFields index records).flatMap lineBytes := by
  induction records generalizing index with
  | nil => rfl
  | cons record rest ih =>
      rw [recordLines, encode_append, recordLine, encode_lineOf, ih]
      rfl

theorem tableBytes_lines (records : List Record) :
    tableBytes records = (headerFields :: recordsFields 0 records).flatMap lineBytes := by
  have head : Utf8.encode headerLine = lineBytes headerFields := by
    rw [headerLine, encode_lineOf, headerFields]
  rw [tableBytes, tableText, encode_append, head, encode_recordLines, List.flatMap_cons]

/-! All fields are plain -/

theorem plain_of_isDigit {character : Char} (digit : character.isDigit = true) :
    AllPlain (Utf8.encodeChar character) := by
  have range : 48 ≤ character.toNat ∧ character.toNat ≤ 57 := Char.isDigit_iff_toNat.1 digit
  have small : character.toNat < 0x80 := by omega
  have each : ∀ offset < 10, Plain (UInt8.ofNat (48 + offset)) := by decide
  have plain := each (character.toNat - 48) (by omega)
  rw [Nat.add_sub_cancel' range.1] at plain
  simpa [Utf8.encodeChar, small, AllPlain] using plain

theorem plain_count (count : Nat) : AllPlain (Utf8.encode (Count.write count)) := by
  intro byte written
  obtain ⟨character, shown, part⟩ := List.mem_flatMap.1 written
  exact plain_of_isDigit (Count.isDigit_of_mem_write count character shown) byte part

theorem plain_truth (flag : Bool) : AllPlain (Utf8.encode (truthText flag)) := by
  cases flag <;> decide

theorem headerFields_plain : PlainLine headerFields :=
  { plain := by decide
    shown := by decide }

theorem recordFields_plain (index : Nat) (record : Record) :
    PlainLine ((recordFields index record).map Utf8.encode) :=
  { plain := by simp [recordFields, plain_count, plain_truth]
    shown := by simp [recordFields] }

theorem recordsFields_plain (index : Nat) (records : List Record) :
    ∀ fields ∈ recordsFields index records, PlainLine fields := by
  induction records generalizing index with
  | nil => simp [recordsFields]
  | cons record rest ih =>
      exact List.forall_mem_cons.2 ⟨recordFields_plain index record, ih (index + 1)⟩

theorem rowsOf_tableBytes (records : List Record) :
    rowsOf (Source.whole (tableBytes records)) =
      rowsFrom .first (headerFields :: recordsFields 0 records) := by
  rw [tableBytes_lines]
  apply rowsOf_lines
  · exact List.forall_mem_cons.2 ⟨headerFields_plain, recordsFields_plain 0 records⟩
  · -- A table begins with a comma.
    have head : lineBytes headerFields = Splitter.comma :: (lineBytes headerFields).tail := by decide
    rw [List.flatMap_cons, head]
    rfl

/-! Fields are read back -/

theorem decodeFields_encode (position : Position) (index : Nat) (fields : List (List Char)) :
    decodeFields position index (fields.map Utf8.encode) = .ok (fields.map String.ofList) := by
  induction fields generalizing index with
  | nil => rfl
  | cons field rest ih =>
      simp only [List.map_cons, decodeFields, Utf8.decode_encode, ih]
      rfl

theorem readField_write (fault : String -> RowFault) {count : Nat} (small : count < Count.limit) :
    readField fault (String.ofList (Count.write count)) = .ok count := by
  simp [readField, Count.read_write count small]

theorem readTruth?_truthText (flag : Bool) :
    readTruth? (String.ofList (truthText flag)) = some flag := by
  cases flag <;> decide

theorem readFields_recordFields {index : Nat} {record : Record} (due : index < Count.limit)
    (fits : record.Fits) :
    readFields index ((recordFields index record).map String.ofList) = .ok record := by
  simp only [recordFields, List.map_cons, List.map_nil, readFields, readField_write _ due,
    readField_write _ fits.1, readField_write _ fits.2, readTruth?_truthText]
  simp [bind, Except.bind, pure, Except.pure]

theorem readRow_written (position : Position) {index : Nat} {record : Record}
    (due : index < Count.limit) (fits : record.Fits) :
    readRow header.length index { position, fields := (recordFields index record).map Utf8.encode } =
      .ok record := by
  have texts : readTexts header.length
      { position, fields := (recordFields index record).map Utf8.encode } =
        .ok ((recordFields index record).map String.ofList) := by
    rw [readTexts, decodeFields_encode]
    rfl
  simp only [readRow, texts, mapError_ok, bind, Except.bind, readFields_recordFields due fits]

theorem readRows_written (position : Position) {records : List Record} (known : Array Record)
    (fit : ∀ record ∈ records, record.Fits) (short : known.size + records.length ≤ Count.limit) :
    readRows header.length (rowsFrom position (recordsFields known.size records)) known =
      .ok (known ++ records) := by
  induction records generalizing position known with
  | nil => simp [recordsFields, rowsFrom, readRows, pure, Except.pure]
  | cons record rest ih =>
      obtain ⟨fits, later⟩ := List.forall_mem_cons.1 fit
      rw [List.length_cons] at short
      have tail := ih (position.behind ((recordFields known.size record).map Utf8.encode))
        (known.push record) later (by rw [Array.size_push]; omega)
      have due : known.size < Count.limit := by omega
      rw [Array.size_push] at tail
      simp only [recordsFields, rowsFrom, readRows, readRow_written position due fits]
      simpa [bind, Except.bind] using tail

theorem settle_whole (bytes : List UInt8) : settle (Source.whole bytes) = Source.whole bytes := by
  unfold settle
  split <;> rfl

theorem readTable_tableBytes {records : List Record} (fit : Fit records) :
    readTable (Source.whole (tableBytes records)) = .ok records := by
  have names : decodeFields .first 0 headerFields = .ok header := by
    rw [headerFields, decodeFields_encode]
    rfl
  have rows := readRows_written (Position.first.behind headerFields) #[] fit.1 (by simpa using fit.2)
  simp only [readTable, settle_whole, readSettled, rowsOf_tableBytes, rowsFrom, names]
  simp only [bind, Except.bind, mapError_ok, checkHeader, if_true, pure, Except.pure]
  rw [show headerFields.length = header.length from rfl]
  simp only [List.size_toArray, List.length_nil] at rows
  simp [rows, checkSource, Source.whole, pure, Except.pure]

end Table

end Rumour

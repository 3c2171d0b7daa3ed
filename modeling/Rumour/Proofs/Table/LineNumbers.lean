import Rumour.Proofs.Table.Verdict

set_option autoImplicit false

/-!
The lines that faults name, in tables whose lines all end alike. A row begins right behind the byte that ended
the row before it. Where lines end with a line feed this is the line of the row; where they end with a carriage
return and a line feed, the line feed is not counted yet and the line before it is named.
-/

namespace Rumour.Table

open Rumour.Storage Rumour.Text

inductive Ending where
  | lineFeed
  | carriageReturnLineFeed
  deriving DecidableEq, Repr

namespace Ending

def bytes : Ending → List UInt8
  | .lineFeed => [Splitter.lineFeed]
  | .carriageReturnLineFeed => [Splitter.carriageReturn, Splitter.lineFeed]

/-- The line feeds of a line that are counted where the next row begins. -/
def counted : Ending → Nat
  | .lineFeed => 1
  | .carriageReturnLineFeed => 0

theorem begins (ending : Ending) :
    ∃ byte rest, ending.bytes = byte :: rest ∧ Splitter.isLineEnd byte = true := by
  cases ending with
  | lineFeed => exact ⟨_, [], rfl, by decide⟩
  | carriageReturnLineFeed => exact ⟨_, [Splitter.lineFeed], rfl, by decide⟩

end Ending

def endedText (ending : Ending) (lines : List (List UInt8)) : List UInt8 :=
  lines.flatMap fun line => line ++ ending.bytes

/-- A line with some bytes, none of them a line end, and no quotes left open behind them. -/
structure TextLine (line : List UInt8) : Prop where
  nonempty : line ≠ []
  inner : ∀ byte ∈ line, Splitter.isLineEnd byte = false
  closed : line.foldl Phase.behind .rowStart ≠ .quoted

/-! Single lines -/

namespace Splitter

theorem step_inner {byte : UInt8} (inner : isLineEnd byte = false) (splitter : Splitter) :
    (splitter.step byte).2 = none ∧ (splitter.step byte).1.start = splitter.start ∧
      (splitter.step byte).1.here.line = splitter.here.line := by
  obtain ⟨phase, start, here, fields, field⟩ := splitter
  have sameLine : byte ≠ lineFeed := by
    rintro rfl
    simp [isLineEnd] at inner
  have other : comma ≠ quote := by decide
  by_cases isComma : byte = comma
  next =>
    subst isComma
    cases phase <;>
      simp [step, phaseByte, fieldByte, bareByte, inner, other, copy, endField, countByte_of_ne sameLine]
  by_cases isQuote : byte = quote
  next =>
    subst isQuote
    cases phase <;>
      simp [step, phaseByte, fieldByte, bareByte, inner, isComma, copy, countByte_of_ne sameLine]
  next =>
    cases phase <;>
      simp [step, phaseByte, fieldByte, bareByte, inner, isComma, isQuote, copy, countByte_of_ne sameLine]

theorem feed_inner {bytes : List UInt8} (inner : ∀ byte ∈ bytes, isLineEnd byte = false) (splitter : Splitter)
    (rows : Array Row) :
    ∃ after, feed bytes (splitter, rows) = (after, rows) ∧ after.start = splitter.start ∧
      after.here.line = splitter.here.line := by
  induction bytes generalizing splitter with
  | nil => exact ⟨splitter, rfl, rfl, rfl⟩
  | cons byte rest ih =>
      obtain ⟨first, others⟩ := List.forall_mem_cons.1 inner
      obtain ⟨noRow, start, line⟩ := step_inner first splitter
      obtain ⟨after, fed, startToo, lineToo⟩ := ih others (splitter.step byte).1
      refine ⟨after, ?_, startToo.trans start, lineToo.trans line⟩
      rw [← fed]
      simp only [feed]
      split
      next same => simp [same] at noRow
      next same => rw [same]

theorem step_carriageReturn {splitter : Splitter} (bare : splitter.phase ≠ .quoted)
    (begun : splitter.phase ≠ .rowStart) :
    splitter.step carriageReturn =
      (before
          { record := splitter.here.record + 1
            line := splitter.here.line
            byte := splitter.here.byte + 1 }, some splitter.row) := by
  obtain ⟨phase, start, here, fields, field⟩ := splitter
  have noQuote : carriageReturn ≠ quote := by decide
  have noComma : carriageReturn ≠ comma := by decide
  have sameLine : carriageReturn ≠ lineFeed := by decide
  have lineEnd : isLineEnd carriageReturn = true := by decide
  cases phase with
  | quoted => exact absurd rfl bare
  | rowStart => exact absurd rfl begun
  | fieldStart | bare | quoteClosed =>
      simp [step, phaseByte, fieldByte, bareByte, noQuote, noComma, lineEnd, endRow, before, row,
        countByte_of_ne sameLine]

theorem feed_ending (ending : Ending) {splitter : Splitter} (bare : splitter.phase ≠ .quoted)
    (begun : splitter.phase ≠ .rowStart) (rows : Array Row) :
    ∃ after, feed ending.bytes (splitter, rows) = (after, rows.push splitter.row) ∧
      after.phase = .rowStart ∧ after.start.line = splitter.here.line + ending.counted ∧
      after.here.line = splitter.here.line + 1 := by
  cases ending with
  | lineFeed =>
      simp only [Ending.bytes, feed, step_lineFeed bare begun]
      exact ⟨_, rfl, rfl, rfl, rfl⟩
  | carriageReturnLineFeed =>
      have lineEnd : isLineEnd lineFeed = true := by decide
      simp only [Ending.bytes, feed, step_carriageReturn bare begun]
      -- The line feed is left to the next row.
      simp only [step, before, phaseByte, lineEnd, if_true]
      exact ⟨_, rfl, rfl, rfl, by simp [countByte]⟩

/-- A line from the beginning of a row is that row. -/
theorem feed_textLine (ending : Ending) {line : List UInt8} (textLine : TextLine line) {splitter : Splitter}
    (waiting : splitter.phase = .rowStart) (rows : Array Row) :
    ∃ after row, feed (line ++ ending.bytes) (splitter, rows) = (after, rows.push row) ∧
      row.position = splitter.start ∧ after.phase = .rowStart ∧
      after.start.line = splitter.here.line + ending.counted ∧ after.here.line = splitter.here.line + 1 := by
  obtain ⟨inside, fed, start, sameLine⟩ := feed_inner textLine.inner splitter rows
  have phase : inside.phase = line.foldl Phase.behind .rowStart := by
    rw [← waiting, ← feed_phase line (splitter, rows), fed]
  have bare : inside.phase ≠ .quoted := phase ▸ textLine.closed
  have begun : inside.phase ≠ .rowStart := by
    rw [phase]
    rcases List.eq_nil_or_concat line with empty | ⟨front, last, same⟩
    · exact absurd empty textLine.nonempty
    · rw [same, List.concat_eq_append, List.foldl_append]
      exact Phase.behind_inner _ (textLine.inner last (by simp [same]))
  obtain ⟨after, ended, waits, startLine, hereLine⟩ := feed_ending ending bare begun rows
  refine ⟨after, inside.row, ?_, start, waits, ?_, ?_⟩
  · rw [feed_append, fed, ended]
  · rw [startLine, sameLine]
  · rw [hereLine, sameLine]

/-! Lines one behind the other -/

theorem feed_endedText (ending : Ending) {lines : List (List UInt8)} (textLines : ∀ line ∈ lines, TextLine line)
    {splitter : Splitter} (waiting : splitter.phase = .rowStart) (rows : Array Row) :
    ∃ (after : Splitter) (more : List Row), feed (endedText ending lines) (splitter, rows) = (after, rows ++ more) ∧
      after.phase = .rowStart ∧ more.length = lines.length ∧
      after.here.line = splitter.here.line + lines.length ∧
      ∀ i row, more[i]? = some row → row.position.line =
        if i = 0 then splitter.start.line else splitter.here.line + (i - 1) + ending.counted := by
  induction lines generalizing splitter rows with
  | nil => exact ⟨splitter, [], by simp [endedText, feed], waiting, rfl, rfl, by simp⟩
  | cons line rest ih =>
      obtain ⟨first, others⟩ := List.forall_mem_cons.1 textLines
      obtain ⟨between, row, fed, position, waits, startLine, hereLine⟩ := feed_textLine ending first waiting rows
      obtain ⟨after, more, fedToo, still, size, atEnd, positions⟩ := ih others waits (rows.push row)
      refine ⟨after, row :: more, ?_, still, ?_, ?_, ?_⟩
      · rw [endedText, List.flatMap_cons, feed_append, fed, ← endedText, fedToo]
        simp
      · rw [List.length_cons, size, List.length_cons]
      · rw [atEnd, hereLine, List.length_cons]
        omega
      · intro i later found
        cases i with
        | zero =>
            obtain rfl : row = later := by simpa using found
            rw [position, if_pos rfl]
        | succ i =>
            have shown := positions i later (by simpa using found)
            rw [shown, startLine, hereLine]
            split <;> simp <;> omega

end Splitter

/-- A header line and lines of rows that all end alike, perhaps behind a byte order mark. -/
structure Sheet where
  marked : Bool
  ending : Ending
  head : List UInt8
  lines : List (List UInt8)
  headLine : TextLine head
  textLines : ∀ line ∈ lines, TextLine line
  /-- Of two marks the second is text. -/
  unmarked : ¬ byteOrderMark <+: head

namespace Sheet

def bytes (sheet : Sheet) : List UInt8 :=
  (if sheet.marked then byteOrderMark else []) ++ endedText sheet.ending (sheet.head :: sheet.lines)

def take (sheet : Sheet) (count : Nat) : Sheet :=
  { sheet with
    lines := sheet.lines.take count
    textLines := fun line member => sheet.textLines line (List.mem_of_mem_take member) }

def rows (sheet : Sheet) : List Row :=
  rowsOf (Source.whole sheet.bytes)

theorem not_marked (sheet : Sheet) : ¬ byteOrderMark <+: endedText sheet.ending (sheet.head :: sheet.lines) := by
  have inner : ∀ byte ∈ byteOrderMark, Splitter.isLineEnd byte = false := by decide +kernel
  rintro ⟨later, parts⟩
  rw [endedText, List.flatMap_cons, List.append_assoc] at parts
  rcases List.append_eq_append_iff.1 parts with ⟨between, head, _⟩ | ⟨between, mark, behind⟩
  · exact sheet.unmarked ⟨between, head.symm⟩
  · cases between with
    | nil => exact sheet.unmarked (by simp [mark])
    | cons byte rest =>
        -- A mark that reaches beyond the head would hold its line end.
        obtain ⟨first, others, ended, lineEnd⟩ := sheet.ending.begins
        have same : first = byte := by
          rw [ended] at behind
          exact (List.cons.inj behind).1
        rw [same, inner byte (by simp [mark])] at lineEnd
        cases lineEnd

theorem splitBytes_eq (sheet : Sheet) :
    ∃ skipped, splitBytes sheet.bytes =
      Splitter.feed (endedText sheet.ending (sheet.head :: sheet.lines)) (Splitter.initial skipped, #[]) := by
  cases marked : sheet.marked with
  | false =>
      exact ⟨0, by simp [bytes, marked, splitBytes, mt List.isPrefixOf_iff_prefix.1 sheet.not_marked]⟩
  | true => exact ⟨byteOrderMark.length, by simp [bytes, marked, splitBytes]⟩

theorem rows_eq (sheet : Sheet) :
    rowsOf { bytes := sheet.bytes, broken := true } = sheet.rows ∧
      sheet.rows.length = sheet.lines.length + 1 ∧
      ∀ i row, sheet.rows[i]? = some row →
        row.position.line = if i = 0 then 1 else i + sheet.ending.counted := by
  have textLines : ∀ line ∈ sheet.head :: sheet.lines, TextLine line :=
    List.forall_mem_cons.2 ⟨sheet.headLine, sheet.textLines⟩
  obtain ⟨skipped, split⟩ := sheet.splitBytes_eq
  have waiting : (Splitter.initial skipped).phase = .rowStart := rfl
  obtain ⟨after, more, fed, waits, length, _, positions⟩ :=
    Splitter.feed_endedText sheet.ending textLines waiting #[]
  have whole : sheet.rows = more := by
    simp [rows, rowsOf, Source.whole, split, fed, Splitter.finish?, waits]
  have broken : rowsOf { bytes := sheet.bytes, broken := true } = more := by
    simp [rowsOf_broken, split, fed]
  refine ⟨broken.trans whole.symm, by rw [whole, length, List.length_cons], fun i row found => ?_⟩
  rw [positions i row (whole ▸ found)]
  cases i with
  | zero => rfl
  | succ i => simp [Splitter.initial, Nat.add_comm]

theorem bytes_take (sheet : Sheet) (count : Nat) :
    sheet.bytes = (sheet.take count).bytes ++ endedText sheet.ending (sheet.lines.drop count) := by
  have lines : sheet.head :: sheet.lines = (sheet.head :: sheet.lines.take count) ++ sheet.lines.drop count := by
    rw [List.cons_append, List.take_append_drop]
  rw [bytes, lines, endedText, List.flatMap_append, ← List.append_assoc]
  rfl

theorem rows_take (sheet : Sheet) {count : Nat} (bound : count ≤ sheet.lines.length) :
    (sheet.take count).rows = sheet.rows.take (count + 1) := by
  obtain ⟨more, grown⟩ := rowsOf_append (sheet.take count).bytes (endedText sheet.ending (sheet.lines.drop count))
  obtain ⟨same, length, _⟩ := (sheet.take count).rows_eq
  have size : (sheet.take count).rows.length = count + 1 := by
    rw [length, take, List.length_take_of_le bound]
  rw [← sheet.bytes_take, same] at grown
  rw [show sheet.rows = (sheet.take count).rows ++ more from grown, List.take_left' size]

end Sheet

/-- A malformed row of a sheet is named by its line where lines end with a line feed, and by the line before
it where they end with a carriage return and a line feed. -/
theorem malformed_line (sheet : Sheet) (headed : readTable (Source.whole (sheet.take 0).bytes) = .ok [])
    {line : Nat} {cause : RowFault}
    (refused : readTable (Source.whole sheet.bytes) = .error (.malformed line cause)) :
    ∃ i < sheet.lines.length,
      (∃ records, records.length = i ∧ readTable (Source.whole (sheet.take i).bytes) = .ok records) ∧
      readTable (Source.whole (sheet.take (i + 1)).bytes) = .error (.malformed line cause) ∧
      match sheet.ending with
      | .lineFeed => line = i + 2
      | .carriageReturnLineFeed => line = i + 1 := by
  obtain ⟨_, length, positions⟩ := sheet.rows_eq
  have first : IsTable (sheet.rows.take 1) [] := by
    rw [← sheet.rows_take (Nat.zero_le _)]
    exact readTable_eq_ok_iff.1 headed
  rcases readTable_eq_error_iff.1 refused with ⟨none, _⟩ | ⟨before, row, later, parts, offends⟩
  · rw [Sheet.rows, none] at length
    cases length
  have parts : sheet.rows = before ++ row :: later := parts
  obtain ⟨records, table, atFault⟩ := offends.behind_header (parts ▸ first)
  have size : before.length = records.length + 1 := table.length
  have within : records.length + 1 ≤ sheet.lines.length := by
    rw [parts, List.length_append, List.length_cons] at length
    omega
  have accepted : (sheet.take records.length).rows = before := by
    rw [sheet.rows_take (Nat.le_of_succ_le within), parts, ← size, List.take_left]
  have rejected : (sheet.take (records.length + 1)).rows = before ++ [row] := by
    rw [sheet.rows_take within, parts, ← size, List.take_length_add_append, List.take_one]
    rfl
  refine ⟨records.length, within, ⟨records, rfl, readTable_eq_ok_iff.2 ?_⟩,
    readTable_eq_error_iff.2 (Or.inr ⟨before, row, [], rejected, .row table atFault⟩), ?_⟩
  · rw [← accepted] at table
    exact table
  cases atFault with
  | malformed _ _ =>
      have position := positions before.length row (by simp [parts])
      rw [size, if_neg (Nat.succ_ne_zero _)] at position
      cases ending : sheet.ending <;> simp [position, ending, Ending.counted]

def faultySheet (ending : Ending) : Sheet where
  marked := false
  ending := ending
  head := textBytes ",n_servers,seeds,rounds"
  lines := [textBytes "0,5,yes,3"]
  headLine := ⟨by decide +kernel, by decide +kernel, by decide +kernel⟩
  textLines := List.forall_mem_singleton.2 ⟨by decide +kernel, by decide +kernel, by decide +kernel⟩
  unmarked := by decide +kernel

theorem faultySheet_line :
    readTable (Source.whole ((faultySheet .lineFeed).take 0).bytes) = .ok [] ∧
      readTable (Source.whole (faultySheet .lineFeed).bytes) = .error (.malformed 2 (.badSeeded "yes")) ∧
      ∃ i < (faultySheet .lineFeed).lines.length, 2 = i + 2 := by
  have headed : readTable (Source.whole ((faultySheet .lineFeed).take 0).bytes) = .ok [] := by decide +kernel
  have refused : readTable (Source.whole (faultySheet .lineFeed).bytes) =
      .error (.malformed 2 (.badSeeded "yes")) := by
    decide +kernel
  obtain ⟨i, within, _, _, line⟩ := malformed_line (faultySheet .lineFeed) headed refused
  exact ⟨headed, refused, i, within, line⟩

/-- The row is the second line, and the first is named. -/
theorem faultySheet_lineBefore :
    (faultySheet .carriageReturnLineFeed).bytes = textBytes ",n_servers,seeds,rounds\r\n0,5,yes,3\r\n" ∧
      readTable (Source.whole ((faultySheet .carriageReturnLineFeed).take 0).bytes) = .ok [] ∧
      readTable (Source.whole (faultySheet .carriageReturnLineFeed).bytes) =
        .error (.malformed 1 (.badSeeded "yes")) := by
  decide +kernel

end Rumour.Table

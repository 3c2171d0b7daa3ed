import Rumour.Proofs.Table.Calls
import Rumour.Proofs.Table.Reading
import Rumour.Proofs.Table.Written

set_option autoImplicit false

/-!
What is written to a sink without a limit is the table of all records offered, however they were cut into
calls, and it is read back.
-/

namespace Rumour.Table

open Rumour.Storage

namespace Writer

theorem Follows.all_of_unlimited {records : List Record} {writer : Writer}
    (follows : writer.Follows records) (unlimited : writer.sink.limit = none) :
    writer.content = tableBytes records ∧ writer.rowsWritten = records.length := by
  cases follows with
  | all content rows => exact ⟨content, rows⟩
  | jammed stuck =>
      have refused := stuck.2
      simp [Sink.hasRoom, unlimited] at refused

theorem close_unlimited {writer : Writer} (unlimited : writer.sink.limit = none) :
    writer.close = (.ok (), { limit := none, bytes := writer.content.toArray }) := by
  have room : writer.sink.hasRoom writer.buffer.size = true := by simp [Sink.hasRoom, unlimited]
  have sink : writer.flushed.sink = { limit := none, bytes := writer.content.toArray } := by
    simp [flushed, content, unlimited]
  simp only [close, flush_eq, room, if_true, sink]

theorem close_after (calls : List Call) :
    ((ofSink (Sink.empty none)).after calls).close =
      (.ok (), { limit := none, bytes := (tableString (offered calls)).toUTF8.data }) := by
  have unlimited : ((ofSink (Sink.empty none)).after calls).sink.limit = none :=
    after_limit (ofSink (Sink.empty none)) calls
  have taken := (after_follows (ofSink_follows none) calls).all_of_unlimited unlimited
  rw [close_unlimited unlimited, taken.1, List.nil_append, tableBytes_eq, Array.toArray_toList]

theorem rowsWritten_after (calls : List Call) :
    ((ofSink (Sink.empty none)).after calls).rowsWritten = (offered calls).length := by
  have unlimited : ((ofSink (Sink.empty none)).after calls).sink.limit = none :=
    after_limit (ofSink (Sink.empty none)) calls
  exact ((after_follows (ofSink_follows none) calls).all_of_unlimited unlimited).2

end Writer

theorem readTable_tableString {records : List Record} (fit : Fit records) :
    readTable (Source.whole (tableString records).toUTF8.data.toList) = .ok records := by
  rw [← tableBytes_eq]
  exact readTable_tableBytes fit

theorem tableString_bytes_injective {records others : List Record} (fit : Fit records)
    (fits : Fit others)
    (same : (tableString records).toUTF8.data = (tableString others).toUTF8.data) : records = others := by
  have read := readTable_tableString fit
  rw [same, readTable_tableString fits] at read
  cases read
  rfl

/-- However records are cut into calls, their table is in the sink once the writer is given up, and reading
it gives them back. -/
theorem unlimited_round_trip {calls : List Call} (fit : Fit (offered calls)) :
    let records := offered calls
    let writer := (Writer.ofSink (Sink.empty none)).after calls
    let bytes := (tableString records).toUTF8.data
    writer.rowsWritten = records.length ∧
      writer.close = (.ok (), { limit := none, bytes }) ∧
      writer.drop = { limit := none, bytes } ∧
      readTable (Source.whole bytes.toList) = .ok records ∧
      ∀ others : List Call, Fit (offered others) →
        ((Writer.ofSink (Sink.empty none)).after others).drop.bytes = writer.drop.bytes →
          offered others = records := by
  intro records writer bytes
  have closed : writer.close = (.ok (), { limit := none, bytes }) := Writer.close_after calls
  have dropped : writer.drop = { limit := none, bytes } := by rw [Writer.drop, closed]
  refine ⟨Writer.rowsWritten_after calls, closed, dropped, readTable_tableString fit, ?_⟩
  intro others fits same
  rw [dropped, Writer.drop, Writer.close_after] at same
  exact tableString_bytes_injective fits fit same

/-- Two records in three writes, one of them empty, with calls to finish between. -/
def cutCalls : List Call :=
  [.write [{ size := 1, seeded := false, rounds := 2 }], .finish, .write [], .finish,
    .write [{ size := 18446744073709551615, seeded := true, rounds := 18446744073709551615 }]]

theorem cutCalls_round_trip :
    Fit (offered cutCalls) ∧
      tableString (offered cutCalls) =
        ",n_servers,seeds,rounds\n0,1,False,2\n1,18446744073709551615,True,18446744073709551615\n" ∧
      ((Writer.ofSink (Sink.empty none)).after cutCalls).rowsWritten = 2 ∧
      ((Writer.ofSink (Sink.empty none)).after cutCalls).drop =
        { limit := none, bytes := (tableString (offered cutCalls)).toUTF8.data } ∧
      readTable (Source.whole (tableString (offered cutCalls)).toUTF8.data.toList) =
        .ok (offered cutCalls) := by
  have fit : Fit (offered cutCalls) := by decide
  obtain ⟨rows, _, dropped, read, _⟩ := unlimited_round_trip fit
  exact ⟨fit, by decide +kernel, rows, dropped, read⟩

end Rumour.Table

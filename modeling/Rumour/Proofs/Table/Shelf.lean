import Rumour.Proofs.Storage.Names
import Rumour.Proofs.Table.Refusal
import Rumour.Table.Shelf

set_option autoImplicit false

/-!
A table written to a file of its own. The file always holds what the writer's sink holds, since a sink only grows, so
once the table is closed the file holds all records offered.
-/

namespace Rumour.Table

open Rumour.Storage

/-! Sinks grow -/

namespace Writer

theorem emit_grows (known : List UInt8) (byte : UInt8) :
    Keeps (fun sink _ => known <+: sink.bytes.toList) (emit byte) := by
  intro writer within
  rw [emit_eq]
  by_cases free : writer.buffer.size < capacity
  · rw [if_pos free]
    exact within
  · rw [if_neg free]
    by_cases room : writer.sink.hasRoom writer.buffer.size
    · rw [if_pos room]
      have more : known <+: writer.flushed.sink.bytes.toList := by
        rw [bytes_flushed]
        exact within.trans writer.sink_prefix
      exact more
    · rw [if_neg room]
      exact within

theorem leave_grows (call : Call) (writer : Writer) :
    writer.sink.bytes.toList <+: (call.leave writer).sink.bytes.toList := by
  cases call with
  | write records =>
      have keeps := writeRecords_keeps (emit_grows writer.sink.bytes.toList) records
      cases ran : writeRecords records writer with
      | ok _ left =>
          rw [Call.leave_ok (.write records) ran]
          exact keeps.of_ok List.prefix_rfl ran
      | error fault left =>
          rw [Call.leave_error (.write records) ran]
          exact keeps.of_error List.prefix_rfl ran
  | finish =>
      rw [leave_finish]
      split
      next => exact List.prefix_rfl
      next =>
        split
        next =>
          rw [bytes_flushed]
          exact writer.sink_prefix
        next => exact List.prefix_rfl

theorem drop_grows (writer : Writer) : writer.sink.bytes.toList <+: writer.drop.bytes.toList := by
  by_cases room : writer.sink.hasRoom writer.buffer.size
  · have flushed : writer.drop = writer.flushed.sink := by simp [drop, close, flush_eq, room]
    rw [flushed, bytes_flushed]
    exact writer.sink_prefix
  · have same : writer.drop = writer.sink := by simp [drop, close, flush_eq, room]
    exact same ▸ List.prefix_rfl

end Writer

/-! Files of open tables -/

namespace Shelf

/-- A table open for writing whose file holds what the sink holds, and nothing else is there. -/
def writing (path : Path) (writer : Writer) : Shelf :=
  { directory := .single path writer.sink.bytes
    openTable := some { path, writer, given := writer.sink.bytes.size } }

theorem deliver_single (path : Path) {old : Array UInt8} {sink : Sink}
    (grown : old.toList <+: sink.bytes.toList) :
    deliver (.single path old) path old.size sink = .single path sink.bytes := by
  -- The file is at its end where the new bytes go, so nothing is written over.
  obtain ⟨more, whole⟩ := grown
  have bytes : sink.bytes = old ++ more.toArray := by
    apply Array.toList_inj.1
    rw [← whole, Array.toList_append]
  have behind : sink.bytes.extract old.size sink.bytes.size = more.toArray := by
    rw [bytes]
    simp
  rw [deliver, behind, Directory.writeAt_end, bytes]

theorem onWriter_writing (path : Path) {call : Call} {writer left : Writer}
    (answered : call.perform writer = .ok () left) :
    onWriter call.perform (writing path writer) = .ok () (writing path left) := by
  have grown := Writer.leave_grows call writer
  rw [call.leave_ok answered] at grown
  simp only [onWriter, writing, answered, advance, deliver_single path grown]

theorem close_writing (path : Path) (writer : Writer) :
    (writing path writer).close = ofDirectory (.single path writer.drop.bytes) := by
  simp only [close, writing, deliver_single path writer.drop_grows]

theorem close_writing_after (path : Path) (calls : List Call) :
    (writing path ((Writer.ofSink (Sink.empty none)).after calls)).close =
      ofDirectory (.single path (tableString (offered calls)).toUTF8.data) := by
  rw [close_writing, Writer.drop, Writer.close_after]

theorem create_writing {name : String} (file : Directory.NamesFile name) :
    create name (ofDirectory .empty) = .ok () (writing [name] (Writer.ofSink (Sink.empty none))) := by
  simp only [create, close, ofDirectory, file.create_empty]
  rfl

theorem create_refused {name : String} {fault : StorageFault} (refused : Directory.empty.create name = .error fault) :
    create name (ofDirectory .empty) = .error (.storage fault) (ofDirectory .empty) := by
  simp only [create, close, ofDirectory, refused]

theorem read_single {name : String} (file : Directory.NamesFile name) {records : List Record} (fit : Fit records) :
    (ofDirectory (.single [name] (tableString records).toUTF8.data)).read name = .ok records := by
  rw [read, ofDirectory, file.read_single]
  exact readTable_tableString fit

end Shelf

end Rumour.Table

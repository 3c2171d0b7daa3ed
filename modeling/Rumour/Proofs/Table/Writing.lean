import Rumour.Proofs.Guarantee
import Rumour.Table.Writer

set_option autoImplicit false

/-!
What a writer has been given. Its content, the bytes in the sink and behind them those in the buffer, only
grows at its end: a flush leaves it, a record that is written adds its line. A writer that a sink refuses
inside a record is jammed: its buffer is full and stays. Whatever every single byte keeps of the sink and the
buffer, records keep.
-/

namespace Rumour.Table

open Rumour.Storage Rumour.Text

theorem encode_append (front back : List Char) :
    Utf8.encode (front ++ back) = Utf8.encode front ++ Utf8.encode back := by
  simp [Utf8.encode]

theorem recordLines_append (index : Nat) (records later : List Record) :
    recordLines index (records ++ later) =
      recordLines index records ++ recordLines (index + records.length) later := by
  induction records generalizing index with
  | nil => rfl
  | cons record rest ih =>
      simp only [List.cons_append, recordLines, ih, List.length_cons, List.append_assoc]
      rw [Nat.add_assoc, Nat.add_comm 1]

theorem tableBytes_append (records later : List Record) :
    tableBytes (records ++ later) =
      tableBytes records ++ Utf8.encode (recordLines records.length later) := by
  simp [tableBytes, tableText, recordLines_append, encode_append]

namespace Writer

/-- All that was written and not lost: the bytes in the sink, then those in the buffer. -/
def content (writer : Writer) : List UInt8 :=
  writer.sink.bytes.toList ++ writer.buffer.toList

/-- The sink has no room for the full buffer. -/
def Jammed (writer : Writer) : Prop :=
  capacity ≤ writer.buffer.size ∧ writer.sink.hasRoom writer.buffer.size = false

/-- A writer that was given some bytes more and is otherwise the same. -/
structure Extends (before : Writer) (bytes : List UInt8) (after : Writer) : Prop where
  content : after.content = before.content ++ bytes
  limit : after.sink.limit = before.sink.limit
  rowsWritten : after.rowsWritten = before.rowsWritten
  finished : after.finished = before.finished

theorem Extends.refl (writer : Writer) : writer.Extends [] writer := by
  constructor <;> simp

theorem Extends.trans {first second third : Writer} {bytes more : List UInt8}
    (start : first.Extends bytes second) (rest : second.Extends more third) :
    first.Extends (bytes ++ more) third :=
  { content := by rw [rest.content, start.content, List.append_assoc]
    limit := rest.limit.trans start.limit
    rowsWritten := rest.rowsWritten.trans start.rowsWritten
    finished := rest.finished.trans start.finished }

/-! Flushes -/

def flushed (writer : Writer) : Writer :=
  { writer with
    sink := { writer.sink with bytes := writer.sink.bytes ++ writer.buffer }
    buffer := #[] }

theorem flush_eq (writer : Writer) :
    flush writer =
      if writer.sink.hasRoom writer.buffer.size then .ok () writer.flushed
      else .error .sinkFull writer := by
  obtain ⟨sink, buffer, rowsWritten, finished⟩ := writer
  by_cases room : sink.hasRoom buffer.size <;> simp [flush, Sink.write, room, flushed]

theorem flushed_extends (writer : Writer) : writer.Extends [] writer.flushed := by
  constructor <;> simp [flushed, content]

theorem bytes_flushed (writer : Writer) : writer.flushed.sink.bytes.toList = writer.content := by
  simp [flushed, content]

/-! Bytes -/

def stored (writer : Writer) (byte : UInt8) : Writer :=
  { writer with buffer := writer.buffer.push byte }

theorem emit_eq (byte : UInt8) (writer : Writer) :
    emit byte writer =
      if writer.buffer.size < capacity then .ok () (writer.stored byte)
      else if writer.sink.hasRoom writer.buffer.size then .ok () (writer.flushed.stored byte)
      else .error .sinkFull writer := by
  by_cases free : writer.buffer.size < capacity
  · simp only [emit, free, if_true]
    rfl
  · by_cases room : writer.sink.hasRoom writer.buffer.size
    · simp only [emit, free, if_false, flush_eq, room, if_true]
      rfl
    · simp [emit, free, flush_eq, room]

theorem stored_extends (writer : Writer) (byte : UInt8) :
    writer.Extends [byte] (writer.stored byte) := by
  constructor <;> simp [stored, content]

theorem emit_ok {writer after : Writer} {byte : UInt8} (ran : emit byte writer = .ok () after) :
    writer.Extends [byte] after ∧ after.buffer ≠ #[] := by
  rw [emit_eq] at ran
  split at ran
  next =>
    cases ran
    exact ⟨writer.stored_extends byte, by simp [stored]⟩
  next =>
    split at ran
    next =>
      cases ran
      exact ⟨writer.flushed_extends.trans (writer.flushed.stored_extends byte), by simp [stored]⟩
    next => cases ran

theorem emit_error {writer after : Writer} {byte : UInt8} {fault : StorageFault}
    (ran : emit byte writer = .error fault after) :
    fault = .sinkFull ∧ after = writer ∧ writer.Jammed := by
  rw [emit_eq] at ran
  split at ran
  next => cases ran
  next full =>
    split at ran
    next => cases ran
    next refused =>
      cases ran
      exact ⟨rfl, rfl, Nat.not_lt.1 full, by simpa using refused⟩

theorem emit_jammed {writer : Writer} (jammed : writer.Jammed) (byte : UInt8) :
    emit byte writer = .error .sinkFull writer := by
  rw [emit_eq, if_neg (Nat.not_lt.2 jammed.1), jammed.2]
  rfl

theorem emitAll_ok {writer after : Writer} {bytes : List UInt8}
    (ran : emitAll bytes writer = .ok () after) :
    writer.Extends bytes after ∧ (bytes ≠ [] → after.buffer ≠ #[]) := by
  induction bytes generalizing writer with
  | nil =>
      cases ran
      exact ⟨.refl _, by simp⟩
  | cons byte rest ih =>
      unfold emitAll at ran
      split at ran
      next nextWriter first =>
        obtain ⟨head, filled⟩ := emit_ok first
        obtain ⟨tail, still⟩ := ih ran
        refine ⟨head.trans tail, fun _ => ?_⟩
        by_cases last : rest = []
        · subst last
          cases ran
          exact filled
        · exact still last
      next => cases ran

theorem emitAll_error {writer after : Writer} {bytes : List UInt8} {fault : StorageFault}
    (ran : emitAll bytes writer = .error fault after) :
    fault = .sinkFull ∧ after.Jammed ∧ ∃ written, written <+: bytes ∧ writer.Extends written after := by
  induction bytes generalizing writer with
  | nil => cases ran
  | cons byte rest ih =>
      unfold emitAll at ran
      split at ran
      next nextWriter first =>
        obtain ⟨cause, jammed, written, before, tail⟩ := ih ran
        refine ⟨cause, jammed, byte :: written, ?_, (emit_ok first).1.trans tail⟩
        exact List.prefix_cons_inj byte |>.2 before
      next nextWriter failed =>
        cases ran
        obtain ⟨cause, same, jammed⟩ := emit_error failed
        subst same
        exact ⟨cause, jammed, [], List.nil_prefix, .refl after⟩

theorem emitAll_jammed {writer : Writer} (jammed : writer.Jammed) {bytes : List UInt8}
    (someBytes : bytes ≠ []) : emitAll bytes writer = .error .sinkFull writer := by
  cases bytes with
  | nil => exact absurd rfl someBytes
  | cons byte rest => simp [emitAll, emit_jammed jammed]

/-! Records -/

structure Took (before : Writer) (records : List Record) (after : Writer) : Prop where
  content : after.content =
    before.content ++ Utf8.encode (recordLines before.rowsWritten records)
  limit : after.sink.limit = before.sink.limit
  rowsWritten : after.rowsWritten = before.rowsWritten + records.length
  finished : after.finished = before.finished

theorem Took.refl (writer : Writer) : writer.Took [] writer := by
  constructor <;> simp [recordLines, Utf8.encode]

theorem Took.trans {first second third : Writer} {records later : List Record}
    (start : first.Took records second) (rest : second.Took later third) :
    first.Took (records ++ later) third :=
  { content := by
      rw [rest.content, start.content, start.rowsWritten, recordLines_append, encode_append,
        List.append_assoc]
    limit := rest.limit.trans start.limit
    rowsWritten := by rw [rest.rowsWritten, start.rowsWritten, List.length_append, Nat.add_assoc]
    finished := rest.finished.trans start.finished }

theorem encode_recordLine_ne_nil (index : Nat) (record : Record) :
    Utf8.encode (recordLine index record) ≠ [] := by
  simp [recordLine, lineOf, Utf8.encode, Utf8.encodeChar]

theorem writeRecord_ok {writer after : Writer} {record : Record}
    (ran : writeRecord record writer = .ok () after) :
    writer.Took [record] after ∧ after.buffer ≠ #[] := by
  unfold writeRecord at ran
  split at ran
  next sink buffer rowsWritten finished emitted =>
    cases ran
    obtain ⟨added, filled⟩ := emitAll_ok emitted
    have rows := added.rowsWritten
    refine ⟨?_, filled (encode_recordLine_ne_nil _ _)⟩
    constructor
    · simpa [recordLines, content] using added.content
    · exact added.limit
    · simpa using rows
    · exact added.finished
  next => cases ran

theorem writeRecord_error {writer after : Writer} {record : Record} {fault : StorageFault}
    (ran : writeRecord record writer = .error fault after) :
    fault = .sinkFull ∧ after.Jammed ∧
      ∃ written, written <+: Utf8.encode (recordLine writer.rowsWritten record) ∧
        writer.Extends written after := by
  unfold writeRecord at ran
  split at ran
  next => cases ran
  next nextWriter failed =>
    cases ran
    exact emitAll_error failed

theorem writeRecord_jammed {writer : Writer} (jammed : writer.Jammed) (record : Record) :
    writeRecord record writer = .error .sinkFull writer := by
  simp [writeRecord, emitAll_jammed jammed (encode_recordLine_ne_nil _ _)]

theorem writeRecords_ok {writer after : Writer} {records : List Record}
    (ran : writeRecords records writer = .ok () after) :
    writer.Took records after ∧ (records ≠ [] → after.buffer ≠ #[]) := by
  induction records generalizing writer with
  | nil =>
      cases ran
      exact ⟨.refl _, by simp⟩
  | cons record rest ih =>
      unfold writeRecords at ran
      split at ran
      next nextWriter first =>
        obtain ⟨head, filled⟩ := writeRecord_ok first
        obtain ⟨tail, still⟩ := ih ran
        refine ⟨head.trans tail, fun _ => ?_⟩
        by_cases last : rest = []
        · subst last
          cases ran
          exact filled
        · exact still last
      next => cases ran

/-- A refused block stops the records: some were taken, and of the next only a part of its line was. -/
theorem writeRecords_error {writer after : Writer} {records : List Record} {fault : TableFault}
    (ran : writeRecords records writer = .error fault after) :
    fault = .format (.storage .sinkFull) ∧ after.Jammed ∧
      ∃ taken record rest stuck written, records = taken ++ record :: rest ∧ writer.Took taken stuck ∧
        written <+: Utf8.encode (recordLine stuck.rowsWritten record) ∧ stuck.Extends written after := by
  induction records generalizing writer with
  | nil => cases ran
  | cons record rest ih =>
      unfold writeRecords at ran
      split at ran
      next nextWriter first =>
        obtain ⟨cause, jammed, taken, failing, later, stuck, written, parts, took, part⟩ := ih ran
        exact ⟨cause, jammed, record :: taken, failing, later, stuck, written, by rw [parts]; rfl,
          (writeRecord_ok first).1.trans took, part⟩
      next cause nextWriter failed =>
        cases ran
        obtain ⟨sink, jammed, written, before, part⟩ := writeRecord_error failed
        exact ⟨by rw [sink], jammed, [], record, rest, _, written, rfl, .refl _, before, part⟩

theorem writeRecords_jammed {writer : Writer} (jammed : writer.Jammed) {records : List Record}
    (someRecords : records ≠ []) :
    writeRecords records writer = .error (.format (.storage .sinkFull)) writer := by
  cases records with
  | nil => exact absurd rfl someRecords
  | cons record rest => simp [writeRecords, writeRecord_jammed jammed]

/-! What single bytes keep -/

section

variable {ε : Type} {kept : Sink -> Array UInt8 -> Prop}

/-- The action keeps what is said of the sink and the buffer, however it ends. -/
def Keeps (kept : Sink -> Array UInt8 -> Prop) (action : EStateM ε Writer Unit) : Prop :=
  Guarantees action (fun writer => kept writer.sink writer.buffer) (fun _ writer => kept writer.sink writer.buffer)
    (fun _ writer => kept writer.sink writer.buffer)

theorem emitAll_keeps (keeps : ∀ byte, Keeps kept (emit byte)) (bytes : List UInt8) :
    Keeps kept (emitAll bytes) := by
  induction bytes with
  | nil => exact fun writer holds => holds
  | cons byte rest ih =>
      intro writer holds
      unfold emitAll
      cases ran : emit byte writer with
      | ok _ left => exact ih left ((keeps byte).of_ok holds ran)
      | error fault left => exact (keeps byte).of_error holds ran

theorem writeRecord_keeps (keeps : ∀ byte, Keeps kept (emit byte)) (record : Record) :
    Keeps kept (writeRecord record) := by
  intro writer holds
  unfold writeRecord
  cases ran : emitAll (Utf8.encode (recordLine writer.rowsWritten record)) writer with
  | ok _ left =>
      have still : kept left.sink left.buffer := (emitAll_keeps keeps _).of_ok holds ran
      exact still
  | error fault left => exact (emitAll_keeps keeps _).of_error holds ran

theorem writeRecords_keeps (keeps : ∀ byte, Keeps kept (emit byte)) (records : List Record) :
    Keeps kept (writeRecords records) := by
  induction records with
  | nil => exact fun writer holds => holds
  | cons record rest ih =>
      intro writer holds
      unfold writeRecords
      cases ran : writeRecord record writer with
      | ok _ left => exact ih left ((writeRecord_keeps keeps record).of_ok holds ran)
      | error fault left => exact (writeRecord_keeps keeps record).of_error holds ran

end

end Writer

end Rumour.Table

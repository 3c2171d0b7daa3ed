import Rumour.Storage.Stream
import Rumour.Table.Fault
import Rumour.Table.Layout

set_option autoImplicit false

/-!
Writers of tables. Bytes gather in a buffer; only when the next byte has no room does the full buffer go
to the sink. A refused block stays in the buffer. A writer counts the records whose last byte has reached
the buffer.
-/

namespace Rumour.Table

open Rumour.Storage Rumour.Text

structure Writer where
  sink : Sink
  buffer : Array UInt8
  rowsWritten : Nat
  finished : Bool
  deriving DecidableEq, Repr

namespace Writer

def capacity : Nat := 8192

def ofSink (sink : Sink) : Writer :=
  { sink, buffer := (Utf8.encode headerLine).toArray, rowsWritten := 0, finished := false }

def flush : EStateM StorageFault Writer Unit
  | { sink, buffer, rowsWritten, finished } =>
      match Sink.write buffer sink with
      | .ok () sink => .ok () { sink, buffer := #[], rowsWritten, finished }
      | .error fault sink => .error fault { sink, buffer, rowsWritten, finished }

def store (byte : UInt8) : EStateM StorageFault Writer Unit
  | { sink, buffer, rowsWritten, finished } =>
      .ok () { sink, buffer := buffer.push byte, rowsWritten, finished }

/-- Adds a byte, after a flush if there is no room for it. -/
def emit (byte : UInt8) : EStateM StorageFault Writer Unit := fun writer =>
  if writer.buffer.size < capacity then
    store byte writer
  else
    -- The block is always a full buffer; nothing larger is ever written here.
    match flush writer with
    | .ok () writer => store byte writer
    | .error fault writer => .error fault writer

def emitAll : List UInt8 -> EStateM StorageFault Writer Unit
  | [] => fun writer => .ok () writer
  | byte :: rest => fun writer =>
      match emit byte writer with
      | .ok () writer => emitAll rest writer
      | .error fault writer => .error fault writer

def writeRecord (record : Record) : EStateM StorageFault Writer Unit := fun writer =>
  match emitAll (Utf8.encode (recordLine writer.rowsWritten record)) writer with
  | .ok () { sink, buffer, rowsWritten, finished } =>
      .ok () { sink, buffer, rowsWritten := rowsWritten + 1, finished }
  | .error fault writer => .error fault writer

def writeRecords : List Record -> EStateM TableFault Writer Unit
  | [] => fun writer => .ok () writer
  | record :: rest => fun writer =>
      match writeRecord record writer with
      | .ok () writer => writeRecords rest writer
      | .error fault writer => .error (.format (.storage fault)) writer

/-- Flushes the first time it is called; later calls do nothing. -/
def finish : EStateM TableFault Writer Unit := fun writer =>
  if writer.finished then
    .ok () writer
  else
    -- The mark is set before the flush, whatever comes of it.
    match flush { writer with finished := true } with
    | .ok () writer => .ok () writer
    | .error fault writer => .error (.storage fault) writer

/-- Gives the writer up: the sink with all that was written, or as it was if it refuses. -/
def close (writer : Writer) : Except TableFault Unit × Sink :=
  match flush writer with
  | .ok () writer => (.ok (), writer.sink)
  | .error fault writer => (.error (.storage fault), writer.sink)

def drop (writer : Writer) : Sink :=
  writer.close.2

end Writer

end Rumour.Table

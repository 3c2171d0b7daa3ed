import Rumour.Storage.Directory
import Rumour.Table.Reader
import Rumour.Table.Writer

set_option autoImplicit false

/-!
Tables kept as files of a directory. At most one table is open for writing. What its writer has given out
reaches the file at once, each block behind the one before it; what is still in the buffer does not.
-/

namespace Rumour.Table

open Rumour.Storage

/-- A table open for writing: its file, its writer, and how many bytes the file was given. -/
structure OpenTable where
  path : Path
  writer : Writer
  given : Nat
  deriving Repr

structure Shelf where
  directory : Directory
  openTable : Option OpenTable
  deriving Repr

namespace Shelf

def ofDirectory (directory : Directory) : Shelf :=
  { directory, openTable := none }

/-- Hands a file what its sink holds beyond the bytes it was given. -/
def deliver (directory : Directory) (path : Path) (given : Nat) (sink : Sink) : Directory :=
  directory.writeAt path given (sink.bytes.extract given sink.bytes.size)

def close (shelf : Shelf) : Shelf :=
  match shelf.openTable with
  | none => shelf
  | some table =>
      ofDirectory (deliver shelf.directory table.path table.given table.writer.drop)

def create (name : String) : EStateM TableFault Shelf Unit := fun shelf =>
  -- The open table is given up first, so its last bytes come before the new file's.
  let directory := shelf.close.directory
  match directory.create name with
  | .error fault => .error (.storage fault) (ofDirectory directory)
  | .ok (path, directory) =>
      .ok ()
        { directory
          openTable := some { path, writer := Writer.ofSink (Sink.empty none), given := 0 } }

/-- The shelf after its open table's writer has moved on. -/
def advance (directory : Directory) (table : OpenTable) (writer : Writer) : Shelf :=
  { directory := deliver directory table.path table.given writer.sink
    openTable := some { table with writer, given := writer.sink.bytes.size } }

def onWriter (action : EStateM TableFault Writer Unit) : EStateM TableFault Shelf Unit := fun shelf =>
  match shelf.openTable with
  | none => .ok () shelf
  | some table =>
      match action table.writer with
      | .ok () writer => .ok () (advance shelf.directory table writer)
      | .error fault writer => .error fault (advance shelf.directory table writer)

def read (shelf : Shelf) (name : String) : Except TableFault (List Record) :=
  match shelf.directory.read name with
  | .error fault => .error (.storage fault)
  -- A folder opens, but its first read fails.
  | .ok none => .error (.format (.storage .isDirectory))
  | .ok (some bytes) => readTable (Source.whole bytes.toList)

def put (shelf : Shelf) (name : String) (bytes : Array UInt8) : Except StorageFault Shelf :=
  match shelf.directory.create name with
  | .error fault => .error fault
  | .ok (path, directory) => .ok { shelf with directory := directory.setBytes path bytes }

end Shelf

end Rumour.Table

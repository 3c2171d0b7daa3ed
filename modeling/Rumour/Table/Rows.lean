import Rumour.Storage.Stream
import Rumour.Table.Fault

set_option autoImplicit false

/-!
Rows of a table, found in its bytes. Commas part fields and line ends part rows; lines without a byte are
skipped. A field that begins with a quote runs to the next quote and holds commas and line ends as they
are; two quotes within it stand for one. A row begins right behind the byte that ended the row before it.
-/

namespace Rumour.Table

open Rumour.Storage

structure Row where
  position : Position
  fields : List (List UInt8)
  deriving DecidableEq, Repr

inductive Phase where
  | rowStart
  | fieldStart
  | bare
  | quoted
  | quoteClosed
  deriving DecidableEq, Repr

/-- A row under way: where it began, its fields so far, the field under way, and how far the bytes have
been read. -/
structure Splitter where
  phase : Phase
  start : Position
  here : Position
  fields : Array (List UInt8)
  field : Array UInt8
  deriving DecidableEq, Repr

namespace Splitter

def comma : UInt8 := 0x2c
def quote : UInt8 := 0x22
def lineFeed : UInt8 := 0x0a
def carriageReturn : UInt8 := 0x0d

def isLineEnd (byte : UInt8) : Bool :=
  byte = lineFeed || byte = carriageReturn

def initial (skipped : Nat) : Splitter :=
  { phase := .rowStart
    start := { record := 0, line := 1, byte := 0 }
    here := { record := 0, line := 1, byte := skipped }
    fields := #[]
    field := #[] }

def countByte (here : Position) (byte : UInt8) : Position :=
  { here with
    line := if byte = lineFeed then here.line + 1 else here.line
    byte := here.byte + 1 }

def copy (phase : Phase) (byte : UInt8) : Splitter -> Splitter
  | { start, here, fields, field, .. } => { phase, start, here, fields, field := field.push byte }

def endField : Splitter -> Splitter
  | { start, here, fields, field, .. } =>
      { phase := .fieldStart, start, here, fields := fields.push field.toList, field := #[] }

/-- The row under way, were it to end here. -/
def row (splitter : Splitter) : Row :=
  { position := splitter.start, fields := (splitter.fields.push splitter.field.toList).toList }

def endRow (splitter : Splitter) : Splitter :=
  let here := { splitter.here with record := splitter.here.record + 1 }
  { phase := .rowStart, start := here, here, fields := #[], field := #[] }

/-- A byte outside quotes that begins or continues a field. -/
def bareByte (byte : UInt8) (splitter : Splitter) : Splitter × Option Row :=
  if byte = comma then (splitter.endField, none)
  else if isLineEnd byte then (splitter.endRow, some splitter.row)
  else (splitter.copy .bare byte, none)

def fieldByte (byte : UInt8) (splitter : Splitter) : Splitter × Option Row :=
  if byte = quote then ({ splitter with phase := .quoted }, none) else splitter.bareByte byte

/-- One byte, already counted, in the phase of the moment. -/
def phaseByte (byte : UInt8) (splitter : Splitter) : Splitter × Option Row :=
  match splitter.phase with
  -- A line end here belongs to a blank line or to the line end of the row before.
  | .rowStart => if isLineEnd byte then (splitter, none) else splitter.fieldByte byte
  | .fieldStart => splitter.fieldByte byte
  | .bare => splitter.bareByte byte
  | .quoted =>
      if byte = quote then ({ splitter with phase := .quoteClosed }, none)
      else (splitter.copy .quoted byte, none)
  | .quoteClosed =>
      -- Two quotes stand for one; what follows a closing quote otherwise is bare.
      if byte = quote then (splitter.copy .quoted byte, none) else splitter.bareByte byte

/-- One byte; gives the row that it ends, if it ends one. -/
def step (splitter : Splitter) (byte : UInt8) : Splitter × Option Row :=
  match splitter with
  | { phase, start, here, fields, field } =>
      phaseByte byte { phase, start, here := countByte here byte, fields, field }

/-- All rows that some bytes end, after the rows before them. -/
def feed : List UInt8 -> Splitter × Array Row -> Splitter × Array Row
  | [], state => state
  | byte :: rest, (splitter, rows) =>
      match splitter.step byte with
      | (splitter, some row) => feed rest (splitter, rows.push row)
      | (splitter, none) => feed rest (splitter, rows)

def finish? (splitter : Splitter) : Option Row :=
  if splitter.phase = .rowStart then none else some splitter.row

end Splitter

/-- The mark that may stand before a text to tell its encoding. -/
def byteOrderMark : List UInt8 := [0xef, 0xbb, 0xbf]

def splitBytes (bytes : List UInt8) : Splitter × Array Row :=
  if byteOrderMark.isPrefixOf bytes then
    Splitter.feed (bytes.drop byteOrderMark.length) (Splitter.initial byteOrderMark.length, #[])
  else
    Splitter.feed bytes (Splitter.initial 0, #[])

/-- A source of which the mark alone is seen ends there, even if it would break behind it. -/
def settle (source : Source) : Source :=
  if source.bytes = byteOrderMark then Source.whole source.bytes else source

/-- The rows that can be known of a source: the end of its bytes ends a row, a break does not. -/
def rowsOf (source : Source) : List Row :=
  let (splitter, rows) := splitBytes source.bytes
  match splitter.finish? with
  | some row => if source.broken then rows.toList else (rows.push row).toList
  | none => rows.toList

end Rumour.Table

import Rumour.Storage.Fault
import Rumour.Text.Quoted

set_option autoImplicit false

/-!
What can go wrong with a table: its storage fails, its bytes do not make even rows of text, or a row does
not say what it should.
-/

namespace Rumour.Table

open Rumour.Storage Rumour.Text

/-- Where a row begins: how many rows lie before it, in which line and after how many bytes. -/
structure Position where
  record : Nat
  line : Nat
  byte : Nat
  deriving DecidableEq, Repr

inductive FormatFault where
  | storage (cause : StorageFault)
  | uneven (position : Position) (expected found : Nat)
  | notText (position : Position) (field sound : Nat)
  deriving DecidableEq, Repr

def FormatFault.message : FormatFault -> String
  | .storage cause => cause.message
  | .uneven position expected found =>
      s!"CSV error: record {position.record} (line: {position.line}, byte: {position.byte}): " ++
        s!"found record with {found} fields, but the previous record has {expected} fields"
  | .notText position field sound =>
      s!"CSV parse error: record {position.record} " ++
        s!"(line {position.line}, field: {field}, byte: {position.byte}): " ++
        s!"invalid utf-8: invalid UTF-8 in field {field} near byte index {sound}"

inductive RowFault where
  | unexpectedHeader (fields : List String)
  | fieldCount (expected found : Nat)
  | badIndex (text : String)
  | wrongIndex (found expected : Nat)
  | badSize (text : String)
  | badSeeded (text : String)
  | badRounds (text : String)
  deriving DecidableEq, Repr

def RowFault.message : RowFault -> String
  | .unexpectedHeader fields => "unexpected header " ++ quoteList fields
  | .fieldCount expected found => s!"expected {expected} fields, got {found}"
  | .badIndex text => "bad row index " ++ quote text
  | .wrongIndex found expected => s!"row index {found}, expected {expected}"
  | .badSize text => "bad n_servers " ++ quote text
  | .badSeeded text => "bad seeds literal " ++ quote text
  | .badRounds text => "bad rounds " ++ quote text

inductive TableFault where
  | storage (cause : StorageFault)
  | format (cause : FormatFault)
  | malformed (line : Nat) (cause : RowFault)
  deriving DecidableEq, Repr

namespace TableFault

def message : TableFault -> String
  | .storage cause => "I/O error: " ++ cause.message
  | .format cause => "CSV error: " ++ cause.message
  | .malformed line cause => s!"malformed result table at line {line}: " ++ cause.message

def causes : TableFault -> List String
  | .storage cause => [cause.message]
  | .format cause => [cause.message]
  | .malformed _ _ => []

end TableFault

end Rumour.Table

import Rumour.Table.Record
import Rumour.Text.Count
import Rumour.Text.Utf8

set_option autoImplicit false

/-!
The written form of a table: a header line, then one line for each record with its running index. The
index column has no name.
-/

namespace Rumour.Table

open Rumour.Text

def header : List String := ["", "n_servers", "seeds", "rounds"]

def truthText (flag : Bool) : List Char :=
  if flag then "True".toList else "False".toList

/-- Fields with commas between them and a line end behind. -/
def lineOf (fields : List (List Char)) : List Char :=
  [','].intercalate fields ++ ['\n']

def headerLine : List Char :=
  lineOf (header.map String.toList)

def recordFields (index : Nat) (record : Record) : List (List Char) :=
  [Count.write index, Count.write record.size, truthText record.seeded, Count.write record.rounds]

def recordLine (index : Nat) (record : Record) : List Char :=
  lineOf (recordFields index record)

def recordLines : Nat -> List Record -> List Char
  | _, [] => []
  | index, record :: rest => recordLine index record ++ recordLines (index + 1) rest

def tableText (records : List Record) : List Char :=
  headerLine ++ recordLines 0 records

def tableBytes (records : List Record) : List UInt8 :=
  Utf8.encode (tableText records)

end Rumour.Table

import Rumour.Table.Layout
import Rumour.Table.Rows

set_option autoImplicit false

/-!
Readers of tables. The first row must be the header, every later row must have as many fields, be text
and carry the index that is due. The first row at fault decides, and rows before a break in the source
come before the break.
-/

namespace Rumour.Table

open Rumour.Storage Rumour.Text

def readTruth? (text : String) : Option Bool :=
  if text = "True" || text = "true" then some true
  else if text = "False" || text = "false" then some false
  else none

def readField (fault : String -> RowFault) (text : String) : Except RowFault Nat :=
  match Count.read text.toList with
  | .ok count => .ok count
  | .error _ => .error (fault text)

def readFields (due : Nat) (fields : List String) : Except RowFault Record :=
  match fields with
  | [indexText, sizeText, seededText, roundsText] => do
      -- The fields are looked at from left to right.
      let index <- readField .badIndex indexText
      if index != due then
        throw (.wrongIndex index due)
      let size <- readField .badSize sizeText
      match readTruth? seededText with
      | none => throw (.badSeeded seededText)
      | some seeded =>
          let rounds <- readField .badRounds roundsText
          pure { size, seeded, rounds }
  | _ => throw (.fieldCount header.length fields.length)

/-- The texts of fields, the first of which has a number. -/
def decodeFields (position : Position) : Nat -> List (List UInt8) -> Except FormatFault (List String)
  | _, [] => pure []
  | index, field :: rest =>
      match Utf8.decode field with
      | .error sound => throw (.notText position index sound)
      | .ok characters => do
          let texts <- decodeFields position (index + 1) rest
          pure (String.ofList characters :: texts)

def readTexts (width : Nat) (row : Row) : Except FormatFault (List String) :=
  if row.fields.length != width then
    throw (.uneven row.position width row.fields.length)
  else
    decodeFields row.position 0 row.fields

def readRow (width due : Nat) (row : Row) : Except TableFault Record := do
  let texts <- (readTexts width row).mapError .format
  (readFields due texts).mapError (.malformed row.position.line)

def readRows (width : Nat) : List Row -> Array Record -> Except TableFault (Array Record)
  | [], records => pure records
  | row :: rest, records => do
      let record <- readRow width records.size row
      readRows width rest (records.push record)

/-- A break in the source, once its rows have been read. -/
def checkSource (source : Source) : Except TableFault Unit :=
  if source.broken then throw (.format (.storage .sourceBroke)) else pure ()

def checkHeader (texts : List String) : Except TableFault Unit :=
  if texts = header then pure () else throw (.malformed 1 (.unexpectedHeader texts))

def readSettled (source : Source) : Except TableFault (List Record) :=
  match rowsOf source with
  | [] => do
      checkSource source
      checkHeader []
      pure []
  | head :: rest => do
      let texts <- (decodeFields head.position 0 head.fields).mapError .format
      checkHeader texts
      let records <- readRows head.fields.length rest #[]
      -- Only now: a row at fault is told before the break behind it.
      checkSource source
      pure records.toList

def readTable (source : Source) : Except TableFault (List Record) :=
  readSettled (settle source)

end Rumour.Table

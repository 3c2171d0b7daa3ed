import Rumour.Command.Session

set_option autoImplicit false

/-!
The command in a process. The library decides everything but the clock, fresh entropy, the terminal and the file.
-/

namespace Rumour.Command

open Rumour.Random Rumour.Storage Rumour.Table

/-- More attempts and passes than any run can take. -/
def endlessPatience : Nat := 4611686018427387904

def entropySeed : IO UInt64 := do
  let bytes <- IO.getRandomBytes 8
  pure (bytes.toList.foldl (fun seed byte => seed * 256 + byte.toUInt64) 0)

def secondsText (milliseconds : Nat) : String :=
  let places := toString (milliseconds % 1000)
  s!"{milliseconds / 1000}." ++ String.ofList (List.replicate (3 - places.length) '0') ++ places ++ " s"

def faultOfError : IO.Error -> StorageFault
  | .noFileOrDirectory .. => .missing
  | .inappropriateType .. => .isDirectory
  | other => .other (toString other)

def fillFile (file : IO.FS.Handle) (records : List Record) : IO Unit := do
  file.write { data := (tableBytes records).toArray }
  file.flush

def storeFile (path : String) (records : List Record) : IO (Except Unstored Unit) := do
  match <- (IO.FS.Handle.mk path .write).toBaseIO with
  | .error error => pure (.error (.uncreated (.storage (faultOfError error))))
  | .ok file =>
      match <- (fillFile file records).toBaseIO with
      | .error error => pure (.error (.unfilled (.storage (faultOfError error))))
      | .ok () => pure (.ok ())

def inProcess : Surroundings IO :=
  { freshSeed := entropySeed
    tell := fun text => do
      let terminal <- IO.getStdout
      terminal.putStr text
      terminal.flush
    timed := fun sweep => do
      let started <- IO.monoMsNow
      let report <- IO.lazyPure sweep
      let ended <- IO.monoMsNow
      pure (report, secondsText (ended - started))
    store := storeFile }

def leave (outcome : Outcome) : IO UInt32 := do
  IO.print outcome.output
  IO.eprint outcome.errors
  pure outcome.exitCode.toUInt32

end Rumour.Command

def main (arguments : List String) : IO UInt32 := do
  match <- Rumour.Command.perform Rumour.Command.inProcess Rumour.Command.endlessPatience arguments with
  | .ok outcome => Rumour.Command.leave outcome
  | .error _ => Rumour.Command.leave (Rumour.Command.failed "the sweep did not end" [])

import Rumour.Command.Arguments
import Rumour.Sweep.Run
import Rumour.Table.Shelf

set_option autoImplicit false

/-!
Sessions of the command. Options are read and the plan is checked before anything is shown; then come a
banner, the sweep, the table and a summary. One worker means a shared sweep, any other setting a
partitioned one. A failure ends the session with its message and what lies behind it. Seeds, times, files and
the terminal are those of the surroundings, in a process or on paper.
-/

namespace Rumour.Command

open Rumour.Random Rumour.Storage Rumour.Table

/-- How a session ends, with what is still to be shown. The entries of the log that the command writes between
its own lines, each on a line that begins with the time, are no part of the output. -/
structure Outcome where
  exitCode : Nat
  output : String
  errors : String
  deriving DecidableEq, Repr

/-- An outcome behind what has been shown before. -/
def Outcome.behind (outcome : Outcome) (shown : String) : Outcome :=
  { outcome with output := shown ++ outcome.output }

def lines (texts : List String) : String :=
  String.join (texts.map fun text => text ++ "\n")

def failureReport (message : String) (causes : List String) : String :=
  let listed :=
    match causes with
    | [] => []
    | [cause] => ["", "Caused by:", "    " ++ cause]
    | several =>
        ["", "Caused by:"] ++ several.mapIdx fun index cause => s!"    {index}: {cause}"
  lines (("Error: " ++ message) :: listed)

def failed (message : String) (causes : List String) : Outcome :=
  { exitCode := 1, output := "", errors := failureReport message causes }

def banner (plan : Plan) : String :=
  let sizes := plan.sizes
  lines
    ["=== gossip-sweep ===",
      s!"Sizes: {sizes.start}..{sizes.stop} step {sizes.step}  |  " ++
        s!"Repetitions: {plan.repetitions}  |  Peers: {plan.peers}  |  " ++
        s!"Seeds: {plan.seeds} (p = {plan.seedBias.text})",
      ""]

/-- What is shown at the end: the time it took, the path, the number of rows and of trials seen. -/
def summary (path elapsed : String) (rows trials : Nat) : String :=
  lines ["", s!"Sweep complete in {elapsed}", s!"  {path} : {rows} rows ({trials} runs)"]

def begin (arguments : List String) : Except Outcome Options :=
  match Options.parse arguments with
  | .error .help => .error { exitCode := 0, output := lines [about], errors := "" }
  | .error fault => .error { exitCode := 2, output := "", errors := lines [fault.message .stream] }
  | .ok options =>
      match options.plan.validate with
      | .error fault => .error (failed fault.message [])
      | .ok () => .ok options

/-- One worker keeps every trial on one stream. -/
def isShared (plan : Plan) : Bool :=
  plan.threads = some 1

def trialsSeen (plan : Plan) (report : SweepReport) : Nat :=
  ((Progress.ofTotal plan.sizes.count).observeAll report.events).trials

/-! Surroundings -/

/-- Why a table is not stored: its file is not there, or not all of it could be written. -/
inductive Unstored where
  | uncreated (fault : TableFault)
  | unfilled (fault : TableFault)
  deriving DecidableEq, Repr

/-- What a session asks of its surroundings: a seed where none is given, lines to be shown, the time that a
sweep takes, and a file for the table. -/
structure Surroundings (m : Type -> Type) where
  freshSeed : m UInt64
  tell : String -> m Unit
  timed : (Unit -> SweepReport) -> m (SweepReport × String)
  store : String -> List Record -> m (Except Unstored Unit)

def conclude (options : Options) (elapsed : String) (rows trials : Nat) : Except Unstored Unit -> Outcome
  | .error (.uncreated fault) => failed ("creating " ++ options.output) (fault.message :: fault.causes)
  | .error (.unfilled fault) => failed fault.message fault.causes
  | .ok () => { exitCode := 0, output := summary options.output elapsed rows trials, errors := "" }

/-- What is left to do behind a sweep: its records go into a table. -/
def storeReport {m : Type -> Type} [Monad m] (surroundings : Surroundings m) (options : Options)
    (report : SweepReport) (elapsed : String) : m (Except Halt Outcome) :=
  match report.outcome with
  | .error (.halted halt) => pure (.error halt)
  | .error (.failed fault) => pure (.ok (failed fault.message fault.causes))
  | .ok records => do
      let stored <- surroundings.store options.output records
      pure (.ok (conclude options elapsed records.length (trialsSeen options.plan report) stored))

/-- The command in its surroundings, of which nothing is asked before the plan is accepted. -/
def perform {m : Type -> Type} [Monad m] (surroundings : Surroundings m) (patience : Nat)
    (arguments : List String) : m (Except Halt Outcome) :=
  match begin arguments with
  | .error outcome => pure (.ok outcome)
  | .ok options => do
      let plan := options.plan
      surroundings.tell (banner plan)
      let seed <- match plan.randomSeed with
        | some seed => pure seed
        | none => surroundings.freshSeed
      let (report, elapsed) <-
        surroundings.timed fun _ => plan.sweep (isShared plan) patience (Stream.ofSeed seed)
      storeReport surroundings options report elapsed

/-! Sessions on paper -/

def fillTable (records : List Record) : EStateM TableFault Shelf Unit := do
  Shelf.onWriter (Writer.writeRecords records)
  Shelf.onWriter Writer.finish

def storeTable (path : String) (records : List Record) (directory : Directory) :
    Except Unstored Unit × Directory :=
  match Shelf.create path (Shelf.ofDirectory directory) with
  | .error fault shelf => (.error (.uncreated fault), shelf.close.directory)
  | .ok () shelf =>
      match fillTable records shelf with
      | .error fault shelf => (.error (.unfilled fault), shelf.close.directory)
      | .ok () shelf => (.ok (), shelf.close.directory)

/-- A directory, and what has been shown so far. -/
structure Scene where
  directory : Directory
  shown : String

/-- A fresh seed and a time that are settled beforehand, and a directory that is a value. -/
def onPaper (freshSeed : UInt64) (elapsed : String) : Surroundings (StateM Scene) :=
  { freshSeed := pure freshSeed
    tell := fun text => modify fun scene => { scene with shown := scene.shown ++ text }
    timed := fun sweep => pure (sweep (), elapsed)
    store := fun path records scene =>
      let (stored, directory) := storeTable path records scene.directory
      (stored, { scene with directory }) }

/-- A whole session in a directory. Without a seed among the arguments the sweep draws from the given
seed; the time it takes is told by the caller. -/
def session (patience : Nat) (freshSeed : UInt64) (elapsed : String) (arguments : List String)
    (directory : Directory) : Except Halt (Outcome × Directory) :=
  let (result, scene) := (perform (onPaper freshSeed elapsed) patience arguments).run { directory, shown := "" }
  result.map fun outcome => (outcome.behind scene.shown, scene.directory)

end Rumour.Command

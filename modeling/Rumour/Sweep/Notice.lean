import Rumour.Table.Record

set_option autoImplicit false

/-!
What a sweep tells while it runs: calls to its observer and entries of the log, in the order in which
they happen. The progress observer counts sizes and trials and adds log entries of its own.
-/

namespace Rumour

inductive SweepEvent where
  | sizeStarted (size : Nat)
  | trialEnded (record : Record)
  | sweepEnded (records : Nat)
  deriving DecidableEq, Repr

inductive Level where
  | trace
  | debug
  | info
  deriving DecidableEq, Repr

def Level.text : Level -> String
  | .trace => "TRACE"
  | .debug => "DEBUG"
  | .info => "INFO"

inductive LogEntry where
  | position (size current total : Nat)
  | sizeStarted (size : Nat)
  | trialFinished (repetition : Nat) (record : Record)
  | sweepFinished (records : Nat)
  | allDone (records : Nat)
  deriving DecidableEq, Repr

inductive LogValue where
  | number (value : Nat)
  | truth (value : Bool)
  | text (value : String)
  deriving DecidableEq, Repr

namespace LogEntry

def level : LogEntry -> Level
  | .position .. => .debug
  | .sizeStarted .. => .info
  | .trialFinished .. => .trace
  | .sweepFinished .. => .debug
  | .allDone .. => .info

def message : LogEntry -> String
  | .position .. => "sweep position"
  | .sizeStarted .. => "population size started"
  | .trialFinished .. => "trial finished"
  | .sweepFinished .. => "sweep finished"
  | .allDone .. => "all population sizes done"

/-- What an entry holds beside its message. The last one also tells how long the sweep took, which is left out here. -/
def fields : LogEntry -> List (String × LogValue)
  | .position size current total =>
      [("n", .number size), ("progress", .text s!"{current}/{total}")]
  | .sizeStarted size => [("n", .number size)]
  | .trialFinished repetition record =>
      [("n", .number record.size), ("rep", .number repetition), ("seeded", .truth record.seeded),
        ("rounds", .number record.rounds)]
  | .sweepFinished records => [("records", .number records)]
  | .allDone records => [("records", .number records)]

end LogEntry

inductive Notice where
  | event (event : SweepEvent)
  | log (entry : LogEntry)
  deriving DecidableEq, Repr

def Notice.events (notices : List Notice) : List SweepEvent :=
  notices.filterMap fun
    | .event call => some call
    | .log _ => none

def Notice.entries (notices : List Notice) : List LogEntry :=
  notices.filterMap fun
    | .event _ => none
    | .log entry => some entry

structure Progress where
  totalSizes : Nat
  sizesSeen : Nat
  trials : Nat
  deriving DecidableEq, Repr

namespace Progress

def ofTotal (totalSizes : Nat) : Progress :=
  { totalSizes, sizesSeen := 0, trials := 0 }

def observe (progress : Progress) : SweepEvent -> Progress
  | .sizeStarted _ => { progress with sizesSeen := progress.sizesSeen + 1 }
  | .trialEnded _ => { progress with trials := progress.trials + 1 }
  | .sweepEnded _ => progress

/-- What the observer, having taken note of a call, writes to the log. -/
def entries (progress : Progress) : SweepEvent -> List LogEntry
  | .sizeStarted size => [.position size progress.sizesSeen progress.totalSizes]
  | .trialEnded _ => []
  | .sweepEnded records => [.allDone records]

def observeAll (progress : Progress) (events : List SweepEvent) : Progress :=
  events.foldl observe progress

def record (state : Progress × Array LogEntry) : Notice -> Progress × Array LogEntry
  | .log entry => (state.1, state.2.push entry)
  | .event event =>
      let progress := state.1.observe event
      (progress, state.2 ++ progress.entries event)

def log (progress : Progress) (notices : List Notice) : List LogEntry :=
  (notices.foldl record (progress, #[])).2.toList

end Progress

end Rumour

import Rumour.Room
import Rumour.Sweep.Trials

set_option autoImplicit false

/-!
Sweeps over all sizes of a plan. A shared sweep draws every trial from one stream and tells of each as it
happens. A partitioned sweep derives a child stream for every size up front, runs the sizes apart, and
tells of them afterwards in order; so it tells nothing if any size fails.
-/

namespace Rumour

open Rumour.Random

structure SweepReport where
  notices : List Notice
  outcome : Except SweepStop (List Record)
  stream : Stream

namespace SweepReport

def events (report : SweepReport) : List SweepEvent :=
  Notice.events report.notices

end SweepReport

namespace Plan

/-! Shared sweeps -/

def sweepSizes (plan : Plan) (patience : Nat) : List Nat -> EStateM SweepStop Ledger Unit
  | [] => pure ()
  | size :: rest => do
      Ledger.tell (.event (.sizeStarted size))
      plan.sweepSize patience size
      plan.sweepSizes patience rest

def closing (records : Nat) : List Notice :=
  [.log (.sweepFinished records), .event (.sweepEnded records)]

def run (plan : Plan) (patience : Nat) (stream : Stream) : SweepReport :=
  match plan.sweepSizes patience plan.sizes.toList (Ledger.ofStream stream) with
  | .ok () ledger =>
      { notices := ledger.notices.toList ++ closing ledger.records.size
        outcome := .ok ledger.records.toList
        stream := ledger.stream }
  | .error stop ledger =>
      { notices := ledger.notices.toList, outcome := .error stop, stream := ledger.stream }

/-! Partitioned sweeps -/

structure Part where
  size : Nat
  stream : Stream
  deriving DecidableEq, Repr

def parts (sizes : List Nat) : StateM Stream (List Part) :=
  sizes.mapM fun size => do
    let stream <- Stream.child (UInt64.ofNat size)
    pure { size, stream }

def runPart (plan : Plan) (patience : Nat) (part : Part) : Except SweepStop (List Record) :=
  match plan.sweepSize patience part.size (Ledger.ofStream part.stream) with
  | .ok () ledger => .ok ledger.records.toList
  | .error stop _ => .error stop

def replay (size : Nat) (records : List Record) : List Notice :=
  .event (.sizeStarted size) :: records.map fun record => .event (.trialEnded record)

def runPartitioned (plan : Plan) (patience : Nat) (stream : Stream) : SweepReport :=
  -- All streams are derived before any part runs, so the parts can run in any order.
  let (parts, stream) := parts plan.sizes.toList stream
  match parts.mapM (plan.runPart patience) with
  | .ok batches =>
      let records := batches.flatten
      { notices :=
          (parts.zip batches).flatMap (fun (part, batch) => replay part.size batch) ++
            closing records.length
        outcome := .ok records
        stream }
  | .error stop => { notices := [], outcome := .error stop, stream }

/-! Sweeps within the memory of a machine -/

/-- A record takes three words of eight bytes. -/
def recordWidth : Nat := 24

/-- Asks for what a sweep keeps: its records, of all sizes or of one at a time, and a contact list. -/
def checkRoom (plan : Plan) (shared : Bool) : Except Fault Unit := do
  let sizes := if shared then plan.sizes.count else 1
  reserve (2 * plan.repetitions * sizes) recordWidth
  (plan.parametersFor plan.sizes.start false).checkRoom

def sweep (plan : Plan) (shared : Bool) (patience : Nat) (stream : Stream) : SweepReport :=
  match plan.checkRoom shared with
  | .error fault => { notices := [], outcome := .error (.halted (.fault fault)), stream }
  | .ok () => if shared then plan.run patience stream else plan.runPartitioned patience stream

end Plan

end Rumour

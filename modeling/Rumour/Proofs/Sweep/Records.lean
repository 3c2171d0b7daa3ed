import Rumour.Proofs.Sweep.Trials
import Rumour.Sweep.Run

set_option autoImplicit false

/-!
What a sweep returns. A shared and a partitioned sweep that return records return them for the same slots, in
the order of the sizes. What stops either is a trial that reached the cap with a healthy node left.
-/

namespace Rumour.Plan

open Rumour.Random

def slots (plan : Plan) (sizes : List Nat) : List (Nat × Bool) :=
  sizes.flatMap plan.sizeSlots

theorem length_slots (plan : Plan) (sizes : List Nat) :
    (plan.slots sizes).length = 2 * plan.repetitions * sizes.length := by
  induction sizes with
  | nil => rfl
  | cons size rest ih =>
      have head : (plan.sizeSlots size).length = 2 * plan.repetitions := by
        simp [sizeSlots, Nat.mul_comm]
      have tail : (plan.slots (size :: rest)).length =
          (plan.sizeSlots size).length + (plan.slots rest).length := by
        simp [slots]
      rw [tail, head, ih, List.length_cons, Nat.mul_succ, Nat.add_comm]

/-! Shared sweeps -/

theorem sweepSizes_guarantees (plan : Plan) (patience : Nat) (sizes : List Nat)
    (valid : ∀ size ∈ sizes, ∀ seeded, (plan.parametersFor size seeded).validate = .ok ())
    (filled : List (Nat × Bool)) :
    Guarantees (plan.sweepSizes patience sizes) (plan.Filled filled)
      (fun _ => plan.Filled (filled ++ plan.slots sizes)) (fun stop _ => plan.CanStop sizes stop) := by
  induction sizes generalizing filled with
  | nil =>
      refine .pure () fun ledger holds => ?_
      simpa [slots] using holds
  | cons size rest ih =>
      obtain ⟨head, tail⟩ := List.forall_mem_cons.1 valid
      have first : [size] ⊆ size :: rest := by simp
      have others : rest ⊆ size :: rest := by simp
      refine .bind (plan.tell_guarantees _ filled _) fun _ => ?_
      have swept := (sweepSize_guarantees head patience filled).weaken fun _ _ stops => stops.mono first
      refine .bind swept fun _ => ?_
      have later := (ih tail (filled ++ plan.sizeSlots size)).weaken fun _ _ stops => stops.mono others
      simpa [slots] using later

def Outcome (plan : Plan) (sizes : List Nat) : Except SweepStop (List Record) -> Prop
  | .ok records => plan.Fills (plan.slots sizes) records
  | .error stop => plan.CanStop sizes stop

theorem run_outcome {plan : Plan} (accepted : plan.validate = .ok ()) (patience : Nat)
    (stream : Stream) : plan.Outcome plan.sizes.toList (plan.run patience stream).outcome := by
  have sure := plan.sweepSizes_guarantees patience plan.sizes.toList
    (fun size member => parametersFor_valid accepted member) [] (Ledger.ofStream stream) plan.fills_nil
  unfold run
  cases ran : plan.sweepSizes patience plan.sizes.toList (Ledger.ofStream stream) with
  | ok _ ledger =>
      rw [ran] at sure
      simpa [Outcome, Filled] using sure
  | error stop ledger =>
      rw [ran] at sure
      exact sure

/-! Partitioned sweeps -/

theorem runPart_outcome {plan : Plan} (patience : Nat) (part : Part)
    (valid : ∀ seeded, (plan.parametersFor part.size seeded).validate = .ok ()) :
    plan.Outcome [part.size] (plan.runPart patience part) := by
  have sure := sweepSize_guarantees valid patience [] (Ledger.ofStream part.stream) plan.fills_nil
  unfold runPart
  cases ran : plan.sweepSize patience part.size (Ledger.ofStream part.stream) with
  | ok _ ledger =>
      rw [ran] at sure
      simpa [Outcome, Filled, slots] using sure
  | error stop ledger =>
      rw [ran] at sure
      exact sure

/-- Parts that run one after the other leave the records of all of them, or the first stop. -/
theorem runParts_outcome (plan : Plan) (patience : Nat) (parts : List Part)
    (valid : ∀ part ∈ parts, ∀ seeded, (plan.parametersFor part.size seeded).validate = .ok ()) :
    plan.Outcome (parts.map Part.size) ((parts.mapM (plan.runPart patience)).map List.flatten) := by
  induction parts with
  | nil => exact plan.fills_nil
  | cons part rest ih =>
      obtain ⟨head, tail⟩ := List.forall_mem_cons.1 valid
      have first := runPart_outcome patience part head
      have later := ih tail
      rw [List.mapM_cons]
      cases ran : plan.runPart patience part with
      | error stop =>
          rw [ran] at first
          exact CanStop.mono first (by simp)
      | ok batch =>
          rw [ran] at first
          cases others : rest.mapM (plan.runPart patience) with
          | error stop =>
              rw [others] at later
              have others : rest.map Part.size ⊆ (part :: rest).map Part.size := by simp
              exact CanStop.mono later others
          | ok batches =>
              rw [others] at later
              simpa [Outcome, slots, Except.map, Bind.bind, Except.bind, Pure.pure, Except.pure]
                using Fills.append first later

theorem parts_cons (size : Nat) (rest : List Nat) (stream : Stream) :
    parts (size :: rest) stream =
      ({ size, stream := .ofSeed (stream.childSeed (UInt64.ofNat size)) } ::
        (parts rest stream.advance).1, (parts rest stream.advance).2) := by
  simp only [parts, List.mapM_cons]
  rfl

theorem map_size_parts (sizes : List Nat) (stream : Stream) :
    (parts sizes stream).1.map Part.size = sizes := by
  induction sizes generalizing stream with
  | nil => rfl
  | cons size rest ih => simp [parts_cons, ih]

theorem stream_parts (sizes : List Nat) (stream : Stream) :
    (parts sizes stream).2 = stream.skip sizes.length := by
  induction sizes generalizing stream with
  | nil => rfl
  | cons size rest ih => simp only [parts_cons, ih, List.length_cons, Stream.skip]

theorem runPartitioned_eq (plan : Plan) (patience : Nat) (stream : Stream) :
    plan.runPartitioned patience stream =
      match (parts plan.sizes.toList stream).1.mapM (plan.runPart patience) with
      | .ok batches =>
          { notices :=
              ((parts plan.sizes.toList stream).1.zip batches).flatMap
                  (fun (part, batch) => replay part.size batch) ++
                closing batches.flatten.length
            outcome := .ok batches.flatten
            stream := stream.skip plan.sizes.toList.length }
      | .error stop =>
          { notices := [], outcome := .error stop, stream := stream.skip plan.sizes.toList.length } := by
  rw [← stream_parts]
  simp only [runPartitioned]
  rcases parts plan.sizes.toList stream with ⟨members, rest⟩
  rfl

theorem outcome_runPartitioned (plan : Plan) (patience : Nat) (stream : Stream) :
    (plan.runPartitioned patience stream).outcome =
      ((parts plan.sizes.toList stream).1.mapM (plan.runPart patience)).map List.flatten := by
  rw [runPartitioned_eq]
  cases (parts plan.sizes.toList stream).1.mapM (plan.runPart patience) <;> rfl

theorem stream_runPartitioned (plan : Plan) (patience : Nat) (stream : Stream) :
    (plan.runPartitioned patience stream).stream = (parts plan.sizes.toList stream).2 := by
  rw [runPartitioned_eq, stream_parts]
  cases (parts plan.sizes.toList stream).1.mapM (plan.runPart patience) <;> rfl

theorem runPartitioned_outcome {plan : Plan} (accepted : plan.validate = .ok ()) (patience : Nat)
    (stream : Stream) :
    plan.Outcome plan.sizes.toList (plan.runPartitioned patience stream).outcome := by
  have sizes := map_size_parts plan.sizes.toList stream
  have sure := plan.runParts_outcome patience (parts plan.sizes.toList stream).1 (by
    intro part member
    apply parametersFor_valid accepted
    rw [← sizes]
    exact List.mem_map_of_mem member)
  rw [sizes] at sure
  rwa [outcome_runPartitioned]

/-! Both -/

theorem sweep_outcome {plan : Plan} (accepted : plan.validate = .ok ()) {shared : Bool}
    (room : plan.checkRoom shared = .ok ()) (patience : Nat) (stream : Stream) :
    plan.Outcome plan.sizes.toList (plan.sweep shared patience stream).outcome := by
  simp only [sweep, room]
  cases shared with
  | true => exact run_outcome accepted patience stream
  | false => exact runPartitioned_outcome accepted patience stream

theorem checkRoom_of_ok {plan : Plan} {shared : Bool} {patience : Nat} {stream : Stream}
    {records : List Record} (returned : (plan.sweep shared patience stream).outcome = .ok records) :
    plan.checkRoom shared = .ok () := by
  unfold sweep at returned
  split at returned
  next => cases returned
  next room => exact room

/-- A sweep that returns has a record for every size, repetition and policy, in this order, with at least two
rounds, with two for a single node, and with no more than the cap or two. -/
theorem sweep_complete {plan : Plan} (accepted : plan.validate = .ok ()) (shared : Bool)
    (patience : Nat) (stream : Stream) (records : List Record)
    (returned : (plan.sweep shared patience stream).outcome = .ok records) :
    records.map Record.slot =
        plan.sizes.grid.flatMap (fun size =>
          (List.replicate plan.repetitions [(size, false), (size, true)]).flatten) ∧
      records.length = plan.expectedRecords ∧
      plan.expectedRecords = 2 * plan.repetitions * plan.sizes.grid.length ∧
      ∀ record ∈ records, 2 ≤ record.rounds ∧ (record.size = 1 → record.rounds = 2) ∧
        ∀ cap, plan.maxRounds = some cap → record.rounds ≤ max cap 2 := by
  have fills := sweep_outcome accepted (checkRoom_of_ok returned) patience stream
  rw [returned] at fills
  have steps := (plan.validate_eq_ok_iff.1 accepted).1
  have grid : plan.sizes.toList = plan.sizes.grid := Sizes.toList_eq_grid (by omega)
  have number : plan.sizes.grid.length = plan.sizes.count := by rw [← grid, Sizes.length_toList]
  refine ⟨?_, ?_, ?_, ?_⟩
  · rw [← grid]
    exact fills.order
  · rw [Fills.length fills, length_slots, Sizes.length_toList]
    rfl
  · rw [number]
    rfl
  · intro record member
    have allowed := fills.rounds record member
    exact ⟨allowed.least, allowed.single, allowed.capped⟩

/-- Sizes 1 and 3, once each, where every seeded node also calls the seed. -/
def shortPlan (cap : Nat) : Plan :=
  { sizes := { start := 1, stop := 4, step := 2 }
    repetitions := 1
    peers := 1
    seeds := 1
    seedBias := { bits := 0x3ff0000000000000 }
    maxRounds := some cap
    randomSeed := none
    threads := none }

def shortRecords : List Record :=
  [{ size := 1, seeded := false, rounds := 2 }, { size := 1, seeded := true, rounds := 2 },
    { size := 3, seeded := false, rounds := 3 }, { size := 3, seeded := true, rounds := 2 }]

theorem shortRecords_complete :
    (shortPlan 9).validate = .ok () ∧
      ((shortPlan 9).sweep false 20 (.ofSeed 4)).outcome = .ok shortRecords ∧
      shortRecords.map Record.slot = [(1, false), (1, true), (3, false), (3, true)] ∧
      shortRecords.length = (shortPlan 9).expectedRecords ∧
      ∀ record ∈ shortRecords, 2 ≤ record.rounds ∧ record.rounds ≤ 9 := by
  have accepted : (shortPlan 9).validate = .ok () := by decide
  have returned : ((shortPlan 9).sweep false 20 (.ofSeed 4)).outcome = .ok shortRecords := by
    decide +kernel
  obtain ⟨slots, count, _, rounds⟩ := sweep_complete accepted false 20 (.ofSeed 4) shortRecords returned
  refine ⟨accepted, returned, slots, count, fun record member => ?_⟩
  obtain ⟨least, _, capped⟩ := rounds record member
  exact ⟨least, capped 9 rfl⟩

/-- A sweep that has room meets no fault and no invalid parameters. Unless its patience ends first, what stops
it is a trial of several nodes that reached the cap with a healthy node left. -/
theorem sweep_stops_at_cap {plan : Plan} (accepted : plan.validate = .ok ()) (shared : Bool)
    (room : plan.checkRoom shared = .ok ()) (patience : Nat) (stream : Stream) (stop : SweepStop)
    (stopped : (plan.sweep shared patience stream).outcome = .error stop) :
    stop = .halted .unfinished ∨
      ∃ size cap infected,
        stop = .failed (.trial size (.capped { size, rounds := max cap 2, infected })) ∧
          plan.maxRounds = some cap ∧ size ∈ plan.sizes.grid ∧ 2 ≤ size ∧ 1 ≤ infected ∧
            infected < size := by
  have stops := sweep_outcome accepted room patience stream
  rw [stopped] at stops
  have steps := (plan.validate_eq_ok_iff.1 accepted).1
  rw [Sizes.toList_eq_grid (by omega)] at stops
  cases stops with
  | unfinished => exact .inl rfl
  | capped size seeded shortfall member short =>
      obtain ⟨shortSize, rounds, infected⟩ := shortfall
      obtain ⟨sizeEq, several, ⟨cap, capped, counter⟩, lower, upper⟩ := short
      simp only [parametersFor] at *
      subst sizeEq counter
      exact .inr ⟨_, cap, infected, rfl, capped, member, several, lower, upper⟩

/-- Under a cap of zero the short plan stops at its second size, after the one pass that is always made. -/
theorem shortPlan_stops :
    (shortPlan 0).validate = .ok () ∧ (shortPlan 0).checkRoom true = .ok () ∧
      ∃ infected, ((shortPlan 0).sweep true 20 (.ofSeed 2)).outcome =
          .error (.failed (.trial 3 (.capped { size := 3, rounds := 2, infected }))) ∧
        1 ≤ infected ∧ infected < 3 := by
  have accepted : (shortPlan 0).validate = .ok () := by decide
  have room : (shortPlan 0).checkRoom true = .ok () := by decide
  have stopped : ((shortPlan 0).sweep true 20 (.ofSeed 2)).outcome =
      .error (.failed (.trial 3 (.capped { size := 3, rounds := 2, infected := 2 }))) := by
    decide +kernel
  rcases sweep_stops_at_cap accepted true room 20 (.ofSeed 2) _ stopped with
    unfinished | ⟨size, cap, infected, stop, capped, _, _, lower, upper⟩
  · cases unfinished
  · simp only [SweepStop.failed.injEq, SweepFault.trial.injEq, RunFault.capped.injEq,
      Shortfall.mk.injEq] at stop
    obtain ⟨rfl, _, _, rfl⟩ := stop
    exact ⟨accepted, room, 2, stopped, lower, upper⟩

end Rumour.Plan

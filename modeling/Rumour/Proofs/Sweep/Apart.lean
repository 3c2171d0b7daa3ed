import Rumour.Proofs.Except
import Rumour.Proofs.Sweep.Ledger
import Rumour.Proofs.Sweep.Records

set_option autoImplicit false

/-!
Sizes swept apart. A partitioned sweep returns what shared sweeps of its sizes return, one size each on a child
stream of its own, put together in the order of the sizes; the first of them that fails fails the whole.
-/

namespace Rumour.Plan

open Rumour.Random

def only (plan : Plan) (size : Nat) : Plan :=
  plan.onSizes { start := size, stop := size + 1, step := 1 }

/-- Shared sweeps of some sizes alone, each on the child that a stream derives at that size. -/
def apart (plan : Plan) (patience : Nat) : List Nat -> Stream -> List SweepReport
  | [], _ => []
  | size :: rest, stream =>
      let (child, left) := Stream.child (UInt64.ofNat size) stream
      (plan.only size).run patience child :: plan.apart patience rest left

theorem toList_only (plan : Plan) (size : Nat) : (plan.only size).sizes.toList = [size] := by
  simp [only, Sizes.toList_eq_range', Sizes.count]

theorem onSizes_valid {plan : Plan} (accepted : plan.validate = .ok ()) {sizes : Sizes} (steps : 0 < sizes.step)
    (someSize : sizes.start < sizes.stop) (among : sizes.toList ⊆ plan.sizes.toList) :
    (plan.onSizes sizes).validate = .ok () := by
  obtain ⟨_, positive, _, repetitions, threads, _⟩ := plan.validate_eq_ok_iff.1 accepted
  have counted := Sizes.count_pos steps someSize
  have above := Sizes.start_le (among (Sizes.start_mem_toList counted))
  have checked : (plan.onSizes sizes).checkSizes (plan.onSizes sizes).ends = .ok () := by
    rw [checkSizes_eq_ok_iff]
    intro size listed seeded
    have someCounted : 0 < (plan.onSizes sizes).sizes.count := counted
    exact parametersFor_valid accepted (among (ends_subset someCounted listed)) seeded
  rw [validate_eq_ok_iff]
  exact ⟨Nat.ne_of_gt steps, by simp only [sizes_onSizes]; omega, someSize, repetitions, threads, checked⟩

theorem only_valid {plan : Plan} (accepted : plan.validate = .ok ()) {size : Nat}
    (member : size ∈ plan.sizes.toList) : (plan.only size).validate = .ok () := by
  apply onSizes_valid accepted Nat.one_pos (Nat.lt_succ_self size)
  have alone := toList_only plan size
  rw [only, sizes_onSizes] at alone
  rw [alone]
  simpa using member

theorem outcome_run_only (plan : Plan) (patience size : Nat) (stream : Stream) :
    ((plan.only size).run patience stream).outcome = plan.runPart patience { size, stream } := by
  have same : (plan.only size).sweepSize patience size = plan.sweepSize patience size :=
    plan.sweepSize_onSizes _ patience size
  -- The shared sweep tells of the size first, so its trials go on behind that notice.
  have told : Ledger.tell (.event (.sizeStarted size)) (Ledger.ofStream stream) =
      .ok () ((Ledger.ofStream stream).behind
        { stream, notices := #[.event (.sizeStarted size)], records := #[] }) := rfl
  simp only [run, toList_only, sweepSizes, Bind.bind, EStateM.bind, told, same,
    plan.sweepSize_appends patience size _ _, runPart]
  cases plan.sweepSize patience size (Ledger.ofStream stream) with
  | ok _ ledger => simp [Pure.pure, EStateM.pure, Ledger.behind]
  | error stop ledger => rfl

theorem map_runPart_parts (plan : Plan) (patience : Nat) (sizes : List Nat) (stream : Stream) :
    (parts sizes stream).1.map (plan.runPart patience) =
      (plan.apart patience sizes stream).map SweepReport.outcome := by
  induction sizes generalizing stream with
  | nil => rfl
  | cons size rest ih =>
      simp only [parts_cons, List.map_cons, apart, Stream.child, ih, outcome_run_only]

/-! Observers -/

def sizeEvents (size : Nat) (records : List Record) : List SweepEvent :=
  .sizeStarted size :: records.map .trialEnded

theorem events_append (notices more : List Notice) :
    Notice.events (notices ++ more) = Notice.events notices ++ Notice.events more :=
  List.filterMap_append

theorem events_replay (size : Nat) (records : List Record) :
    Notice.events (replay size records) = sizeEvents size records := by
  simp only [replay, Notice.events, sizeEvents, List.filterMap_cons, List.filterMap_map]
  congr 1
  change List.filterMap (some ∘ SweepEvent.trialEnded) records = _
  rw [List.filterMap_eq_map]

theorem events_replays (members : List Part) (batches : List (List Record)) :
    Notice.events ((members.zip batches).flatMap fun (part, batch) => replay part.size batch) =
      ((members.map Part.size).zip batches).flatMap fun (size, batch) => sizeEvents size batch := by
  induction members generalizing batches with
  | nil => rfl
  | cons part rest ih =>
      cases batches with
      | nil => rfl
      | cons batch others =>
          simp only [List.map_cons, List.zip_cons_cons, List.flatMap_cons, events_append, events_replay, ih]

/-- The plan of every size alone is accepted. Where all sizes succeed alone, a partitioned sweep returns their
records and replays their events in the order of the sizes; else it stops as the first that stops does, and tells
nothing. Either way its stream has moved on by one word for each size. -/
theorem runPartitioned_eq_apart {plan : Plan} (accepted : plan.validate = .ok ()) (patience : Nat)
    (stream : Stream) :
    (∀ size ∈ plan.sizes.grid, (plan.only size).validate = .ok ()) ∧
      (∀ batches : List (List Record),
        (plan.apart patience plan.sizes.grid stream).map SweepReport.outcome = batches.map .ok →
          (plan.runPartitioned patience stream).outcome = .ok batches.flatten ∧
            (plan.runPartitioned patience stream).events =
              (plan.sizes.grid.zip batches).flatMap
                  (fun (size, batch) => .sizeStarted size :: batch.map .trialEnded) ++
                [.sweepEnded batches.flatten.length]) ∧
      (∀ (batches : List (List Record)) stop later,
        (plan.apart patience plan.sizes.grid stream).map SweepReport.outcome =
            batches.map .ok ++ .error stop :: later →
          (plan.runPartitioned patience stream).outcome = .error stop ∧
            (plan.runPartitioned patience stream).events = []) ∧
      (plan.runPartitioned patience stream).stream = stream.skip plan.sizes.grid.length := by
  have steps := (plan.validate_eq_ok_iff.1 accepted).1
  rw [← Sizes.toList_eq_grid (Nat.pos_of_ne_zero steps), ← map_runPart_parts]
  refine ⟨fun size member => only_valid accepted member, fun batches answers => ?_,
    fun batches stop later answers => ?_, ?_⟩
  · rw [runPartitioned_eq, mapM_eq_ok_of_map answers]
    refine ⟨rfl, ?_⟩
    simp only [SweepReport.events, events_append, events_replays, map_size_parts]
    rfl
  · rw [runPartitioned_eq, mapM_eq_error_of_map answers]
    exact ⟨rfl, rfl⟩
  · rw [runPartitioned_eq]
    cases (parts plan.sizes.toList stream).1.mapM (plan.runPart patience) <;> rfl

/-- Under a cap of nine both sizes of the short plan succeed; under a cap of two the second one falls short. -/
theorem shortPlan_apart :
    (shortPlan 9).validate = .ok () ∧
      ((shortPlan 9).apart 20 [1, 3] (.ofSeed 4)).map SweepReport.outcome =
        [shortRecords.take 2, shortRecords.drop 2].map .ok ∧
      ((shortPlan 9).runPartitioned 20 (.ofSeed 4)).outcome = .ok shortRecords ∧
      ((shortPlan 9).runPartitioned 20 (.ofSeed 4)).events =
        [.sizeStarted 1] ++ (shortRecords.take 2).map .trialEnded ++
          [.sizeStarted 3] ++ (shortRecords.drop 2).map .trialEnded ++ [.sweepEnded 4] ∧
      (shortPlan 2).validate = .ok () ∧
      ∃ stop,
        ((shortPlan 2).apart 20 [1, 3] (.ofSeed 4)).map SweepReport.outcome =
            [shortRecords.take 2].map .ok ++ .error stop :: [] ∧
          ((shortPlan 2).runPartitioned 20 (.ofSeed 4)).outcome = .error stop ∧
          ((shortPlan 2).runPartitioned 20 (.ofSeed 4)).events = [] := by
  have accepted : (shortPlan 9).validate = .ok () := by decide
  have returned : ((shortPlan 9).apart 20 [1, 3] (.ofSeed 4)).map SweepReport.outcome =
      [shortRecords.take 2, shortRecords.drop 2].map .ok := by decide +kernel
  have acceptedToo : (shortPlan 2).validate = .ok () := by decide
  have stopped : ((shortPlan 2).apart 20 [1, 3] (.ofSeed 4)).map SweepReport.outcome =
      [shortRecords.take 2].map .ok ++
        .error (.failed (.trial 3 (.capped { size := 3, rounds := 2, infected := 2 }))) :: [] := by
    decide +kernel
  obtain ⟨outcome, events⟩ := (runPartitioned_eq_apart accepted 20 (.ofSeed 4)).2.1 _ returned
  obtain ⟨failed, silent⟩ := (runPartitioned_eq_apart acceptedToo 20 (.ofSeed 4)).2.2.1 _ _ _ stopped
  exact ⟨accepted, returned, outcome, events, acceptedToo, _, stopped, failed, silent⟩

end Rumour.Plan

import Rumour.Command.Session
import Rumour.Proofs.Sweep.Cap
import Rumour.Proofs.Table.Shelf

set_option autoImplicit false

/-!
Ends of a session in an empty directory. The options are refused, the sweep fails, the table cannot be created, or the
directory holds the table of the records that were swept and nothing else.
-/

namespace Rumour

open Rumour.Random Rumour.Storage Rumour.Table

/-! Trials seen -/

theorem Progress.trials_observeAll (progress : Progress) (events : List SweepEvent) :
    (progress.observeAll events).trials =
      progress.trials + (events.filterMap SweepEvent.record?).length := by
  induction events generalizing progress with
  | nil => rfl
  | cons event rest ih =>
      have later := ih (progress.observe event)
      cases event with
      | sizeStarted size => exact later
      | trialEnded record => exact later.trans (Nat.succ_add_eq_add_succ _ _)
      | sweepEnded records => exact later

namespace Plan

section

variable {plan : Plan} {patience : Nat} {stream : Stream} {records : List Record}

theorem records_replayed (sizes : List Nat) (batches : List (List Record)) (all : batches.length = sizes.length) :
    ((sizes.zip batches).flatMap fun (size, batch) => sizeEvents size batch).filterMap SweepEvent.record? =
      batches.flatten := by
  induction sizes generalizing batches with
  | nil =>
      obtain rfl := List.length_eq_zero_iff.1 all
      rfl
  | cons size rest ih =>
      cases batches with
      | nil => cases all
      | cons batch others =>
          rw [List.zip_cons_cons, List.flatMap_cons, List.filterMap_append, ih others (Nat.succ.inj all),
            List.flatten_cons]
          exact congrArg (· ++ others.flatten) (records_sizeEvents size batch)

theorem runPartitioned_told (returned : (plan.runPartitioned patience stream).outcome = .ok records) :
    (plan.runPartitioned patience stream).events.filterMap SweepEvent.record? = records := by
  rw [runPartitioned_eq] at returned ⊢
  cases ran : (parts plan.sizes.toList stream).1.mapM (plan.runPart patience) with
  | error stop =>
      rw [ran] at returned
      cases returned
  | ok batches =>
      rw [ran] at returned
      cases returned
      have sizes := map_size_parts plan.sizes.toList stream
      have all := congrArg List.length (map_of_mapM_eq_ok ran)
      rw [List.length_map, List.length_map] at all
      have count := congrArg List.length sizes
      rw [List.length_map] at count
      rw [SweepReport.events, events_append, events_replays, sizes, List.filterMap_append,
        records_replayed _ _ (all.symm.trans count)]
      exact List.append_nil _

theorem run_told (steps : 0 < plan.sizes.step) (returned : (plan.run patience stream).outcome = .ok records) :
    (plan.run patience stream).events.filterMap SweepEvent.record? = records := by
  obtain ⟨completed, left, ended, rfl⟩ := run_eq_ok steps returned
  exact (run_ended_tells steps ended).records

/-- The sweep that the number of workers asks for. -/
def swept (plan : Plan) (patience : Nat) (stream : Stream) : SweepReport :=
  if plan.threads = some 1 then plan.run patience stream else plan.runPartitioned patience stream

theorem sweep_eq_swept (room : plan.checkRoom (Command.isShared plan) = .ok ()) :
    plan.sweep (Command.isShared plan) patience stream = plan.swept patience stream := by
  simp only [sweep, room]
  by_cases one : plan.threads = some 1 <;> simp [Command.isShared, swept, one]

theorem swept_told (steps : 0 < plan.sizes.step) (returned : (plan.swept patience stream).outcome = .ok records) :
    (plan.swept patience stream).events.filterMap SweepEvent.record? = records := by
  unfold swept at returned ⊢
  split at returned
  next one =>
    rw [if_pos one]
    exact run_told steps returned
  next several =>
    rw [if_neg several]
    exact runPartitioned_told returned

theorem swept_outcome (accepted : plan.validate = .ok ()) :
    plan.Outcome plan.sizes.toList (plan.swept patience stream).outcome := by
  unfold swept
  split
  next => exact run_outcome accepted patience stream
  next => exact runPartitioned_outcome accepted patience stream

theorem swept_length (accepted : plan.validate = .ok ())
    (returned : (plan.swept patience stream).outcome = .ok records) :
    records.length = 2 * plan.repetitions * plan.sizes.grid.length := by
  have fills : plan.Outcome plan.sizes.toList (plan.swept patience stream).outcome := swept_outcome accepted
  rw [returned] at fills
  rw [Fills.length fills, length_slots, Sizes.toList_eq_grid (step_pos accepted)]

theorem swept_fit (accepted : plan.validate = .ok ())
    (returned : (plan.swept patience stream).outcome = .ok records)
    (rounds : ∀ record ∈ records, record.rounds < Text.Count.limit) (indices : records.length ≤ Text.Count.limit) :
    Fit records := by
  have fills : plan.Outcome plan.sizes.toList (plan.swept patience stream).outcome := swept_outcome accepted
  rw [returned] at fills
  refine ⟨fun record member => ⟨?_, rounds record member⟩, indices⟩
  have slot : record.slot ∈ plan.slots plan.sizes.toList := fills.order ▸ List.mem_map_of_mem member
  have among : record.size ∈ plan.sizes.toList := by
    simp only [slots, sizeSlots, List.mem_flatMap, List.mem_flatten, List.mem_replicate] at slot
    obtain ⟨size, listed, _, ⟨_, rfl⟩, pair⟩ := slot
    have same : record.size = size := by
      simp only [List.mem_cons, List.not_mem_nil, or_false] at pair
      rcases pair with plain | seeded
      · exact congrArg Prod.fst plain
      · exact congrArg Prod.fst seeded
    exact same ▸ listed
  have valid := (Parameters.validate_eq_ok_iff _).1 (parametersFor_valid accepted among false)
  have small : record.size ≤ NodeId.greatestIndex := valid.2.1
  simp only [NodeId.greatestIndex] at small
  simp only [Text.Count.limit]
  omega

end

end Plan

namespace Command

/-! Tables -/

theorem fillTable_writing (path : Path) (records : List Record) :
    let opened := Writer.ofSink (Sink.empty none)
    fillTable records (Shelf.writing path opened) =
      .ok () (Shelf.writing path (opened.after [.write records, .finish])) := by
  intro opened
  let taken := (Call.write records).leave opened
  have unlimited : taken.sink.limit = none := Writer.leave_limit (.write records) opened
  obtain ⟨written, wrote⟩ := Writer.perform_unlimited (rfl : opened.sink.limit = none) (.write records)
  obtain ⟨finished, ended⟩ := Writer.perform_unlimited unlimited .finish
  have first : Shelf.onWriter (Writer.writeRecords records) (Shelf.writing path opened) =
      .ok () (Shelf.writing path taken) := by
    simp only [taken, Call.leave_ok _ wrote]
    exact Shelf.onWriter_writing path wrote
  have second : Shelf.onWriter Writer.finish (Shelf.writing path taken) =
      .ok () (Shelf.writing path (Call.finish.leave taken)) := by
    rw [Call.leave_ok _ ended]
    exact Shelf.onWriter_writing path ended
  simp only [fillTable, Bind.bind, EStateM.bind, first]
  exact second

theorem storeTable_written {path : String} (file : Directory.NamesFile path) (records : List Record) :
    storeTable path records .empty = (.ok (), .single [path] (tableString records).toUTF8.data) := by
  have closed := Shelf.close_writing_after [path] [.write records, .finish]
  have all : offered [.write records, .finish] = records := List.append_nil records
  rw [all] at closed
  simp only [storeTable, Shelf.create_writing file, fillTable_writing, closed]
  rfl

theorem storeTable_refused {path : String} {fault : StorageFault}
    (refused : Directory.empty.create path = .error fault) (records : List Record) :
    storeTable path records .empty = (.error (.uncreated (.storage fault)), .empty) := by
  simp only [storeTable, Shelf.create_refused refused]
  rfl

theorem failed_creating (path : String) (fault : StorageFault) :
    let cause : TableFault := .storage fault
    failed ("creating " ++ path) (cause.message :: cause.causes) =
      { exitCode := 1
        output := ""
        errors := lines
          ["Error: creating " ++ path, "", "Caused by:", "    0: I/O error: " ++ fault.message,
            "    1: " ++ fault.message] } := by
  intro cause
  have head : "Error: " ++ ("creating " ++ path) = "Error: creating " ++ path := by
    rw [← String.append_assoc]
    rfl
  have first : s!"    {0}: {cause.message}" = "    0: I/O error: " ++ fault.message := by
    change "    0: " ++ ("I/O error: " ++ fault.message) = _
    rw [← String.append_assoc]
    rfl
  have second : s!"    {1}: {fault.message}" = "    1: " ++ fault.message := rfl
  rw [← head, ← first, ← second]
  rfl

/-! Ends -/

/-- How a session in an empty directory closes behind its banner, and what the directory then holds. -/
inductive Closes (patience : Nat) (seed : UInt64) (elapsed : String) (options : Options) :
    Outcome -> Directory -> Prop where
  | stopped {size : Nat} {cause : RunFault}
      (stops : (options.plan.swept patience (.ofSeed seed)).outcome = .error (.failed (.trial size cause))) :
      Closes patience seed elapsed options
        { exitCode := 1
          output := ""
          errors := lines
            [s!"Error: simulation failed at population size {size}: {cause.message}", "", "Caused by:",
              "    " ++ cause.message] }
        .empty
  | uncreated {records : List Record} {fault : StorageFault}
      (returned : (options.plan.swept patience (.ofSeed seed)).outcome = .ok records)
      (refusal : Directory.empty.create options.output = .error fault) :
      Closes patience seed elapsed options
        { exitCode := 1
          output := ""
          errors := lines
            ["Error: creating " ++ options.output, "", "Caused by:", "    0: I/O error: " ++ fault.message,
              "    1: " ++ fault.message] }
        .empty
  | written {records : List Record} {count : Nat}
      (returned : (options.plan.swept patience (.ofSeed seed)).outcome = .ok records)
      (created : ∃ made, Directory.empty.create options.output = .ok made)
      (counted : count = 2 * options.plan.repetitions * options.plan.sizes.grid.length)
      (readBack : (∀ record ∈ records, record.rounds < Text.Count.limit) → records.length ≤ Text.Count.limit →
        (Shelf.ofDirectory (.single [options.output] (tableString records).toUTF8.data)).read options.output =
          .ok records) :
      Closes patience seed elapsed options
        { exitCode := 0
          output := lines
            ["", s!"Sweep complete in {elapsed}", s!"  {options.output} : {count} rows ({count} runs)"]
          errors := "" }
        (.single [options.output] (tableString records).toUTF8.data)

/-- How a session in an empty directory ends: what is shown in all, and what the directory then holds. -/
inductive Ends (patience : Nat) (seed : UInt64) (elapsed : String) (options : Options) :
    Outcome -> Directory -> Prop where
  | refused {fault : PlanFault} (refusal : options.plan.validate = .error fault) :
      Ends patience seed elapsed options
        { exitCode := 1, output := "", errors := lines ["Error: " ++ fault.message] }
        .empty
  | begun {closing : Outcome} {left : Directory} (accepted : options.plan.validate = .ok ())
      (closes : Closes patience seed elapsed options closing left) :
      Ends patience seed elapsed options
        { closing with
          output :=
            lines
              ["=== gossip-sweep ===",
                s!"Sizes: {options.start}..{options.stop} step {options.step}  |  " ++
                  s!"Repetitions: {options.repetitions}  |  Peers: {options.peers}  |  " ++
                  s!"Seeds: {options.seeds} (p = {options.seedBias.text})",
                ""] ++
              closing.output }
        left

section

variable {arguments : List String} {options : Options}

theorem begin_refused (parsed : Options.parse arguments = .ok options) {fault : PlanFault}
    (refusal : options.plan.validate = .error fault) : begin arguments = .error (failed fault.message []) := by
  simp only [begin, parsed, refusal]

theorem begin_accepted (parsed : Options.parse arguments = .ok options)
    (accepted : options.plan.validate = .ok ()) : begin arguments = .ok options := by
  simp only [begin, parsed, accepted]

theorem room_of_returns {plan : Plan} {patience : Nat} {stream : Stream}
    (returns : ∀ halt, (plan.sweep (isShared plan) patience stream).outcome ≠ .error (.halted halt)) :
    plan.checkRoom (isShared plan) = .ok () := by
  cases room : plan.checkRoom (isShared plan) with
  | error fault => exact absurd (by rw [Plan.sweep, room]) (returns (.fault fault))
  | ok _ => rfl

section

variable {m : Type -> Type} [Monad m] (surroundings : Surroundings m) (patience : Nat)

/-- Of a plan that is refused nothing is shown and nothing is stored, whatever the surroundings are. -/
theorem perform_refused (parsed : Options.parse arguments = .ok options) {fault : PlanFault}
    (refusal : options.plan.validate = .error fault) :
    perform surroundings patience arguments = pure (.ok (failed fault.message [])) := by
  rw [perform, begin_refused parsed refusal]

variable (parsed : Options.parse arguments = .ok options) (accepted : options.plan.validate = .ok ()) {seed : UInt64}
  (seeded : options.plan.randomSeed = some seed) (room : options.plan.checkRoom (isShared options.plan) = .ok ())

include parsed accepted seeded room

theorem perform_swept [LawfulMonad m] :
    perform surroundings patience arguments =
      (do
        surroundings.tell (banner options.plan)
        let (report, elapsed) <- surroundings.timed fun _ => options.plan.swept patience (.ofSeed seed)
        storeReport surroundings options report elapsed) := by
  simp only [perform, begin_accepted parsed accepted, seeded, Plan.sweep_eq_swept room, pure_bind]

theorem session_swept (freshSeed : UInt64) (elapsed : String) (directory : Directory) :
    session patience freshSeed elapsed arguments directory =
      let report := options.plan.swept patience (.ofSeed seed)
      match report.outcome with
      | .error (.halted halt) => .error halt
      | .error (.failed fault) =>
          .ok ((failed fault.message fault.causes).behind (banner options.plan), directory)
      | .ok records =>
          let (stored, left) := storeTable options.output records directory
          let closing := conclude options elapsed records.length (trialsSeen options.plan report) stored
          .ok (closing.behind (banner options.plan), left) := by
  simp only [session, perform_swept _ _ parsed accepted seeded room, storeReport, onPaper, StateT.run_bind,
    StateT.run_modify, pure_bind, String.empty_append]
  rcases (options.plan.swept patience (.ofSeed seed)).outcome with (fault | halt) | records
  all_goals rfl

end

/-- A session that is given a seed, and whose sweep returns if it is begun, is refused or it shows its banner and closes
in one of three ways. -/
theorem session_ends (parsed : Options.parse arguments = .ok options) {seed : UInt64}
    (seeded : options.plan.randomSeed = some seed)
    (target : '/' ∉ options.output.toList ∨ ∃ fault, Directory.empty.create options.output = .error fault)
    (patience : Nat)
    (returns : options.plan.validate = .ok () → ∀ halt,
      (options.plan.sweep (isShared options.plan) patience (.ofSeed seed)).outcome ≠ .error (.halted halt))
    (freshSeed : UInt64) (elapsed : String) :
    ∃ outcome left, session patience freshSeed elapsed arguments .empty = .ok (outcome, left) ∧
      Ends patience seed elapsed options outcome left := by
  cases checked : options.plan.validate with
  | error fault =>
      have refused := perform_refused (onPaper freshSeed elapsed) patience parsed checked
      exact ⟨_, _, by rw [session, refused]; rfl, .refused checked⟩
  | ok _ =>
      have room := room_of_returns (returns checked)
      have ran := session_swept patience parsed checked seeded room freshSeed elapsed .empty
      have swept : options.plan.Outcome options.plan.sizes.toList
          (options.plan.swept patience (.ofSeed seed)).outcome := Plan.swept_outcome checked
      cases returned : (options.plan.swept patience (.ofSeed seed)).outcome with
      | error stop =>
          rw [returned] at swept
          simp only [returned] at ran
          cases swept with
          | unfinished =>
              -- A sweep that runs out of patience does not return.
              have halted := returns checked .unfinished
              rw [Plan.sweep_eq_swept room] at halted
              exact absurd returned halted
          | capped size policy shortfall => exact ⟨_, _, ran, .begun checked (.stopped returned)⟩
      | ok records =>
          have told := Plan.swept_told (Plan.step_pos checked) returned
          have seen : trialsSeen options.plan (options.plan.swept patience (.ofSeed seed)) = records.length := by
            rw [trialsSeen, Progress.trials_observeAll, told]
            exact Nat.zero_add records.length
          simp only [returned, seen] at ran
          rcases target.elim Directory.namesFile_or_error Or.inr with file | ⟨fault, refusal⟩
          · rw [storeTable_written file] at ran
            have counted := Plan.swept_length checked returned
            refine ⟨_, _, ran, .begun checked (.written returned ⟨_, file.create_empty⟩ counted fun rounds indices => ?_)⟩
            exact Shelf.read_single file (Plan.swept_fit checked returned rounds indices)
          · simp only [storeTable_refused refusal, conclude, failed_creating] at ran
            exact ⟨_, _, ran, .begun checked (.uncreated returned refusal)⟩

end

/-! Short sessions -/

/-- Arguments for sizes 1 and 3, once each, where every seeded node also calls the seed. -/
def shortArguments (more : List String) : List String :=
  ["--start", "1", "--stop", "4", "--step", "2", "-r1", "--seeds", "1", "--seed-bias=1"] ++ more

def shortOptions (cap : Nat) (seed : UInt64) (threads : Option Nat) : Options :=
  { start := 1
    stop := 4
    step := 2
    repetitions := 1
    peers := 1
    seeds := 1
    seedBias := { bits := 0x3ff0000000000000 }
    maxRounds := some cap
    randomSeed := some seed
    threads
    output := "out.csv" }

/-- With one worker and a cap of nine the table is written; with any number of workers and a cap of two the second size
falls short. -/
theorem shortSession_ends :
    let table := ",n_servers,seeds,rounds\n0,1,False,2\n1,1,True,2\n2,3,False,3\n3,3,True,2\n".toUTF8.data
    let sizes := "Sizes: 1..4 step 2  |  Repetitions: 1  |  Peers: 1  |  Seeds: 1 (p = 1)"
    let short := "population of 3 did not converge within 2 rounds (2 infected)"
    session 20 0 "0.001 s" (shortArguments ["--max-rounds", "9", "--rng-seed", "2", "-j1", "--output=out.csv"]) .empty =
        .ok
          ({ exitCode := 0
             output := lines
               ["=== gossip-sweep ===", sizes, "", "", "Sweep complete in 0.001 s",
                 "  out.csv : 4 rows (4 runs)"]
             errors := "" },
            .single ["out.csv"] table) ∧
      (Shelf.ofDirectory (.single ["out.csv"] table)).read "out.csv" = .ok Plan.shortRecords ∧
      session 20 0 "0.001 s" (shortArguments ["--max-rounds", "2", "--rng-seed", "4", "-o", "out.csv"]) .empty =
        .ok
          ({ exitCode := 1
             output := lines ["=== gossip-sweep ===", sizes, ""]
             errors := lines ["Error: simulation failed at population size 3: " ++ short, "", "Caused by:",
               "    " ++ short] },
            .empty) := by
  intro table sizes short
  have plain : '/' ∉ "out.csv".toList := by decide
  have file : Directory.NamesFile "out.csv" :=
    { plain
      checked := (Directory.checkName_eq_ok_iff _).2 (by decide)
      named := by decide
      here := by decide
      up := by decide
      short := by decide }
  have text : (tableString Plan.shortRecords).toUTF8.data = table := by decide +kernel
  have parsed : Options.parse
      (shortArguments ["--max-rounds", "9", "--rng-seed", "2", "-j1", "--output=out.csv"]) =
        .ok (shortOptions 9 2 (some 1)) := by decide +kernel
  have accepted : (shortOptions 9 2 (some 1)).plan.validate = .ok () := by decide
  have swept : ((shortOptions 9 2 (some 1)).plan.sweep true 20 (.ofSeed 2)).outcome = .ok Plan.shortRecords := by
    decide +kernel
  have returned : ((shortOptions 9 2 (some 1)).plan.swept 20 (.ofSeed 2)).outcome = .ok Plan.shortRecords := by
    decide +kernel
  have parsedToo : Options.parse
      (shortArguments ["--max-rounds", "2", "--rng-seed", "4", "-o", "out.csv"]) =
        .ok (shortOptions 2 4 none) := by decide +kernel
  have acceptedToo : (shortOptions 2 4 none).plan.validate = .ok () := by decide
  have failed : ((shortOptions 2 4 none).plan.sweep false 20 (.ofSeed 4)).outcome =
      .error (.failed (.trial 3 (.capped { size := 3, rounds := 2, infected := 2 }))) := by decide +kernel
  have stopped : ((shortOptions 2 4 none).plan.swept 20 (.ofSeed 4)).outcome =
      .error (.failed (.trial 3 (.capped { size := 3, rounds := 2, infected := 2 }))) := by decide +kernel
  have written : ∃ outcome left,
      session 20 0 "0.001 s" (shortArguments ["--max-rounds", "9", "--rng-seed", "2", "-j1", "--output=out.csv"])
        .empty = .ok (outcome, left) ∧ Ends 20 2 "0.001 s" (shortOptions 9 2 (some 1)) outcome left := by
    apply session_ends parsed rfl (.inl plain)
    intro _ halt halted
    cases swept.symm.trans halted
  have fallen : ∃ outcome left,
      session 20 0 "0.001 s" (shortArguments ["--max-rounds", "2", "--rng-seed", "4", "-o", "out.csv"]) .empty =
        .ok (outcome, left) ∧ Ends 20 4 "0.001 s" (shortOptions 2 4 none) outcome left := by
    apply session_ends parsedToo rfl (.inl plain)
    intro _ halt halted
    cases failed.symm.trans halted
  rw [← text, ← and_assoc]
  constructor
  next =>
    obtain ⟨outcome, left, ran, ends⟩ := written
    cases ends with
    | refused refusal => cases refusal.symm.trans accepted
    | begun _ closes =>
        cases closes with
        | stopped stops => cases stops.symm.trans returned
        | uncreated _ refusal => cases refusal.symm.trans file.create_empty
        | written again _ counted readBack =>
            cases again.symm.trans returned
            subst counted
            refine ⟨ran.trans ?_, readBack (by decide) (by decide)⟩
            congr 2
            decide +kernel
  next =>
    obtain ⟨outcome, left, ran, ends⟩ := fallen
    cases ends with
    | refused refusal => cases refusal.symm.trans acceptedToo
    | begun _ closes =>
        cases closes with
        | stopped stops =>
            cases stops.symm.trans stopped
            refine ran.trans ?_
            congr 2
            decide +kernel
        | uncreated again _ => cases again.symm.trans stopped
        | written again => cases again.symm.trans stopped

end Command

end Rumour

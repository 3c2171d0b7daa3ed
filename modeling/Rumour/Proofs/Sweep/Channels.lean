import Rumour.Proofs.Sweep.Apart
import Rumour.Proofs.Sweep.Rerun

set_option autoImplicit false

/-!
The channels of a shared sweep. Its records, the calls to its observer and its log all tell of the same trials,
those that come to their end when all trials are made over again on one stream.
-/

namespace Rumour

open Rumour.Random

section

variable {α : Type} {key : α -> Nat} {keys : List Nat} {items : List α}

theorem flatMap_filter_of_sorted (ascending : keys.Pairwise (· < ·))
    (sorted : items.Pairwise fun first second => key first ≤ key second)
    (listed : ∀ item ∈ items, key item ∈ keys) :
    (keys.flatMap fun one => items.filter fun item => key item = one) = items := by
  induction items with
  | nil => simp
  | cons item rest ih =>
      obtain ⟨itemFirst, restSorted⟩ := List.pairwise_cons.1 sorted
      obtain ⟨itemListed, restListed⟩ := List.forall_mem_cons.1 listed
      obtain ⟨early, late, rfl⟩ := List.append_of_mem itemListed
      obtain ⟨_, lateAscending, across⟩ := List.pairwise_append.1 ascending
      -- All items have the key of the first one or a later key.
      have noneEarly : (early.flatMap fun one => rest.filter fun item => key item = one) = [] := by
        simp only [List.flatMap_eq_nil_iff, List.filter_eq_nil_iff, decide_eq_true_eq]
        intro one member other otherMember same
        have below := across one member (key item) (by simp)
        have above := itemFirst other otherMember
        omega
      have noneEarlyToo :
          (early.flatMap fun one => (item :: rest).filter fun item => key item = one) =
            early.flatMap fun one => rest.filter fun item => key item = one := by
        apply List.flatMap_congr
        intro one member
        have below := across one member (key item) (by simp)
        simp [Nat.ne_of_gt below]
      have lateSame :
          (late.flatMap fun one => (item :: rest).filter fun item => key item = one) =
            late.flatMap fun one => rest.filter fun item => key item = one := by
        apply List.flatMap_congr
        intro one member
        have above := (List.pairwise_cons.1 lateAscending).1 one member
        simp [Nat.ne_of_lt above]
      have regrouped := ih restSorted restListed
      rw [List.flatMap_append, List.flatMap_cons, noneEarly, List.nil_append] at regrouped
      rw [List.flatMap_append, List.flatMap_cons, noneEarlyToo, noneEarly, lateSame, List.nil_append,
        List.filter_cons_of_pos (by simp), List.cons_append, regrouped]

end

def SweepEvent.record? : SweepEvent -> Option Record
  | .trialEnded record => some record
  | _ => none

/-! Calls to the observer -/

namespace Plan

theorem events_trials (completed : List Tried) :
    Notice.events (completed.flatMap Tried.notices) =
      (completed.map Tried.record).map .trialEnded := by
  induction completed with
  | nil => rfl
  | cons tried rest ih =>
      rw [List.flatMap_cons, events_append, ih]
      rfl

theorem events_sizeNotices (size : Nat) (completed : List Tried) :
    Notice.events (sizeNotices size completed) =
      sizeEvents size ((completed.map Tried.record).filter fun record => record.size = size) := by
  have trials := events_trials (completed.filter fun tried => tried.trial.size = size)
  rw [List.filter_map]
  exact congrArg (SweepEvent.sizeStarted size :: ·) trials

theorem events_told (sizes : List Nat) (completed : List Tried) :
    Notice.events (told sizes completed) =
      sizes.flatMap fun size =>
        sizeEvents size ((completed.map Tried.record).filter fun record => record.size = size) := by
  induction sizes with
  | nil => rfl
  | cons size rest ih =>
      rw [List.flatMap_cons, ← ih, ← events_sizeNotices]
      exact events_append _ _

theorem records_sizeEvents (size : Nat) (records : List Record) :
    (sizeEvents size records).filterMap SweepEvent.record? = records := by
  rw [sizeEvents, List.filterMap_cons, List.filterMap_map]
  exact List.filterMap_some

theorem trialsOf_sorted (plan : Plan) {sizes : List Nat} (ascending : sizes.Pairwise (· < ·)) :
    (plan.trialsOf sizes).Pairwise fun first second => first.size ≤ second.size := by
  rw [trialsOf, List.pairwise_flatMap]
  constructor
  next =>
    intro size _
    refine List.pairwise_of_forall_mem_list fun first firstMember second secondMember => ?_
    rw [size_of_mem_trialsAt firstMember, size_of_mem_trialsAt secondMember]
  next =>
    refine ascending.imp fun below first firstMember second secondMember => ?_
    rw [size_of_mem_trialsAt firstMember, size_of_mem_trialsAt secondMember]
    exact Nat.le_of_lt below

theorem records_told {plan : Plan} {sizes wide : List Nat} {completed : List Tried}
    (ascending : wide.Pairwise (· < ·)) (made : completed.map Tried.trial <+: plan.trialsOf wide)
    (narrow : sizes.Sublist wide) (listed : ∀ tried ∈ completed, tried.trial.size ∈ sizes) :
    (Notice.events (told sizes completed)).filterMap SweepEvent.record? =
      completed.map Tried.record := by
  have sorted := List.pairwise_map.1 ((plan.trialsOf_sorted ascending).sublist made.sublist)
  have grouped := flatMap_filter_of_sorted (ascending.sublist narrow) sorted listed
  have inOrder := congrArg (List.map Tried.record) grouped
  rw [events_told, List.filterMap_flatMap]
  simp only [records_sizeEvents, List.filter_map, ← List.map_flatMap]
  exact inOrder

end Plan

/-! The log with the observer of the application -/

namespace Progress

/-- Calls and entries in the order in which they happen, each call followed by what the observer writes at it. -/
def interleave : Progress -> List Notice -> List Notice
  | _, [] => []
  | progress, .log entry :: rest => .log entry :: progress.interleave rest
  | progress, .event call :: rest =>
      .event call :: ((progress.observe call).entries call).map .log ++
        (progress.observe call).interleave rest

theorem events_interleave (progress : Progress) (notices : List Notice) :
    Notice.events (progress.interleave notices) = Notice.events notices := by
  induction notices generalizing progress with
  | nil => rfl
  | cons notice rest ih =>
      cases notice with
      | log entry => exact ih progress
      | event call =>
          have noCalls : Notice.events (((progress.observe call).entries call).map .log) = [] := by
            simp [Notice.events]
          have later : Notice.events (progress.interleave (.event call :: rest)) =
              call :: Notice.events (((progress.observe call).entries call).map .log ++
                (progress.observe call).interleave rest) := rfl
          rw [later, Plan.events_append, noCalls, ih]
          rfl

theorem foldl_record (progress : Progress) (written : Array LogEntry) (notices : List Notice) :
    (notices.foldl record (progress, written)).2.toList =
      written.toList ++ Notice.entries (progress.interleave notices) := by
  induction notices generalizing progress written with
  | nil => simp [interleave, Notice.entries]
  | cons notice rest ih =>
      cases notice with
      | log entry => simp [record, ih, interleave, Notice.entries]
      | event call => simp [record, ih, interleave, Notice.entries]

theorem log_eq_entries (progress : Progress) (notices : List Notice) :
    progress.log notices = Notice.entries (progress.interleave notices) := by
  rw [log, foldl_record]
  rfl

end Progress

/-! Lines -/

/-- What is seen of a sweep: a call to its observer, or an entry of the log as it is written. -/
inductive Line where
  | call (event : SweepEvent)
  | entry (level message : String) (fields : List (String × LogValue))
  deriving DecidableEq, Repr

namespace Line

def call? : Line -> Option SweepEvent
  | .call event => some event
  | .entry .. => none

def isEntry : Line -> Bool
  | .call _ => false
  | .entry .. => true

end Line

def LogEntry.line (entry : LogEntry) : Line :=
  .entry entry.level.text entry.message entry.fields

def Notice.line : Notice -> Line
  | .event call => .call call
  | .log entry => entry.line

theorem Notice.events_eq_calls (notices : List Notice) :
    Notice.events notices = (notices.map Notice.line).filterMap Line.call? := by
  rw [Notice.events, List.filterMap_map]
  apply List.filterMap_congr
  rintro (event | entry) _ <;> rfl

theorem Notice.map_line_entries (notices : List Notice) :
    (Notice.entries notices).map LogEntry.line = (notices.map Notice.line).filter Line.isEntry := by
  induction notices with
  | nil => rfl
  | cons notice rest ih =>
      cases notice with
      | event call => exact ih
      | log entry => exact congrArg (entry.line :: ·) ih

namespace Plan

/-- Sizes with their places: the call, the entries of the observer and of the sweep, and the completed trials, each
of which is logged and then told. -/
def transcript (total : Nat) (places : List (Nat × Nat)) (completed : List Tried) : List Line :=
  places.flatMap fun (size, place) =>
    [.call (.sizeStarted size),
      .entry "DEBUG" "sweep position" [("n", .number size), ("progress", .text s!"{place}/{total}")],
      .entry "INFO" "population size started" [("n", .number size)]] ++
    (completed.filter fun tried => tried.trial.size = size).flatMap fun tried =>
      [.entry "TRACE" "trial finished"
          [("n", .number tried.trial.size), ("rep", .number tried.trial.repetition),
            ("seeded", .truth tried.trial.seeded), ("rounds", .number tried.rounds)],
        .call (.trialEnded tried.record)]

theorem interleave_trials (progress : Progress) (completed : List Tried) (more : List Notice) :
    progress.interleave (completed.flatMap Tried.notices ++ more) =
      completed.flatMap Tried.notices ++
        { progress with trials := progress.trials + completed.length }.interleave more := by
  -- The observer writes nothing at a trial; it only counts it.
  induction completed generalizing progress with
  | nil => rfl
  | cons tried rest ih =>
      have counted : progress.trials + (tried :: rest).length = progress.trials + 1 + rest.length := by
        simp only [List.length_cons]
        omega
      have next := ih (progress.observe (.trialEnded tried.record))
      rw [counted]
      exact congrArg (tried.notices ++ ·) next

theorem interleave_told (progress : Progress) (sizes : List Nat) (completed : List Tried) :
    ∃ later : Progress, ∀ more,
      (progress.interleave (told sizes completed ++ more)).map Notice.line =
        transcript progress.totalSizes (sizes.zipIdx (progress.sizesSeen + 1)) completed ++
          (later.interleave more).map Notice.line := by
  -- On the sizes, for every observer: the first size leaves one that has seen a size and some trials more.
  induction sizes generalizing progress with
  | nil => exact ⟨progress, fun more => rfl⟩
  | cons size rest ih =>
      let tried := completed.filter fun tried => tried.trial.size = size
      let noted := progress.observe (.sizeStarted size)
      obtain ⟨later, others⟩ := ih { noted with trials := noted.trials + tried.length }
      refine ⟨later, fun more => ?_⟩
      calc (progress.interleave (told (size :: rest) completed ++ more)).map Notice.line
        _ = (progress.interleave (sizeNotices size completed ++ (told rest completed ++ more))).map Notice.line := by
          rw [told, List.flatMap_cons, List.append_assoc]
          rfl
        _ = [.call (.sizeStarted size),
              .entry "DEBUG" "sweep position"
                [("n", .number size), ("progress", .text s!"{noted.sizesSeen}/{noted.totalSizes}")],
              .entry "INFO" "population size started" [("n", .number size)]] ++
            (noted.interleave (tried.flatMap Tried.notices ++ (told rest completed ++ more))).map Notice.line := rfl
        _ = transcript progress.totalSizes ((size :: rest).zipIdx (progress.sizesSeen + 1)) completed ++
            (later.interleave more).map Notice.line := by
          rw [interleave_trials, List.map_append, others, List.map_flatMap]
          simp [transcript, List.zipIdx_cons, tried, noted, Progress.observe, Tried.notices, Tried.record,
            Notice.line, LogEntry.line, LogEntry.level, LogEntry.message, LogEntry.fields, Level.text]

theorem interleave_closing (progress : Progress) (records : Nat) :
    (progress.interleave (closing records)).map Notice.line =
      [.entry "DEBUG" "sweep finished" [("records", .number records)], .call (.sweepEnded records),
        .entry "INFO" "all population sizes done" [("records", .number records)]] := rfl

/-! Reports -/

/-- What a report tells of the sizes it has begun and of the completed trials, up to its last lines. -/
structure Tells (plan : Plan) (sizes : List Nat) (completed : List Tried) (last : List Line)
    (report : SweepReport) : Prop where
  events : report.events =
    sizes.flatMap (fun size =>
      .sizeStarted size ::
        ((completed.map Tried.record).filter fun record => record.size = size).map .trialEnded) ++
      last.filterMap Line.call?
  records : report.events.filterMap SweepEvent.record? = completed.map Tried.record
  interleaved : ((Progress.ofTotal plan.sizes.count).interleave report.notices).map Notice.line =
    transcript plan.sizes.count (sizes.zipIdx 1) completed ++ last
  log : ((Progress.ofTotal plan.sizes.count).log report.notices).map LogEntry.line =
    (transcript plan.sizes.count (sizes.zipIdx 1) completed ++ last).filter Line.isEntry

theorem tells_of_told {plan : Plan} {sizes wide : List Nat} {completed : List Tried}
    (ascending : wide.Pairwise (· < ·)) (made : completed.map Tried.trial <+: plan.trialsOf wide)
    (narrow : sizes.Sublist wide) (listed : ∀ tried ∈ completed, tried.trial.size ∈ sizes)
    {report : SweepReport} {more : List Notice} {last : List Line}
    (notices : report.notices = told sizes completed ++ more)
    (ends : ∀ progress : Progress, (progress.interleave more).map Notice.line = last)
    (noTrials : (last.filterMap Line.call?).filterMap SweepEvent.record? = []) :
    plan.Tells sizes completed last report := by
  have lastEvents : Notice.events more = last.filterMap Line.call? := by
    rw [← ends (Progress.ofTotal 0), ← Notice.events_eq_calls, Progress.events_interleave]
  have events : report.events = Notice.events (told sizes completed) ++ last.filterMap Line.call? := by
    rw [SweepReport.events, notices, events_append, lastEvents]
  have interleaved : ((Progress.ofTotal plan.sizes.count).interleave report.notices).map Notice.line =
      transcript plan.sizes.count (sizes.zipIdx 1) completed ++ last := by
    obtain ⟨later, shape⟩ := interleave_told (Progress.ofTotal plan.sizes.count) sizes completed
    rw [notices, shape more, ends]
    rfl
  constructor
  next =>
    rw [events, events_told]
    rfl
  next =>
    rw [events, List.filterMap_append, records_told ascending made narrow listed, noTrials, List.append_nil]
  next => exact interleaved
  next => rw [Progress.log_eq_entries, Notice.map_line_entries, interleaved]

section

variable {plan : Plan} {patience : Nat} {stream left : Stream} {completed : List Tried}

theorem run_of_ended (steps : 0 < plan.sizes.step)
    (ended : plan.rerun patience (plan.trialsOf plan.sizes.grid) stream =
      { completed, stopped := none, stream := left }) :
    plan.run patience stream =
      { notices := told plan.sizes.grid completed ++ closing completed.length
        outcome := .ok (completed.map Tried.record)
        stream := left } := by
  rw [run_eq_rerun steps, ended]
  rfl

theorem run_of_stopped (steps : 0 < plan.sizes.step) {failing : Trial} {stop : SweepStop}
    (stopped : plan.rerun patience (plan.trialsOf plan.sizes.grid) stream =
      { completed, stopped := some (failing, stop), stream := left }) :
    plan.run patience stream =
      { notices := told (plan.sizes.grid.filter fun one => one ≤ failing.size) completed
        outcome := .error stop
        stream := left } := by
  rw [run_eq_rerun steps, stopped]
  rfl

theorem run_ended_tells (steps : 0 < plan.sizes.step)
    (ended : plan.rerun patience (plan.trialsOf plan.sizes.grid) stream =
      { completed, stopped := none, stream := left }) :
    plan.Tells plan.sizes.grid completed
      [.entry "DEBUG" "sweep finished" [("records", .number completed.length)],
        .call (.sweepEnded completed.length),
        .entry "INFO" "all population sizes done" [("records", .number completed.length)]]
      (plan.run patience stream) := by
  have made : completed.map Tried.trial = plan.trialsOf plan.sizes.grid := by
    have all := rerun_complete (congrArg Rerun.stopped ended)
    rwa [ended] at all
  have listed : ∀ tried ∈ completed, tried.trial.size ∈ plan.sizes.grid := by
    intro tried member
    have tried : tried.trial ∈ plan.trialsOf plan.sizes.grid := made ▸ List.mem_map_of_mem member
    exact size_of_mem_trialsOf tried
  rw [run_of_ended steps ended]
  exact tells_of_told plan.sizes.grid_ascending (made ▸ List.prefix_rfl) (List.Sublist.refl _) listed rfl
    (fun progress => interleave_closing progress _) rfl

theorem run_stopped_tells (steps : 0 < plan.sizes.step) {failing : Trial} {stop : SweepStop} {rest : List Trial}
    (stopped : plan.rerun patience (plan.trialsOf plan.sizes.grid) stream =
      { completed, stopped := some (failing, stop), stream := left })
    (shape : plan.trialsOf plan.sizes.grid = completed.map Tried.trial ++ failing :: rest) :
    plan.Tells (plan.sizes.grid.filter fun one => one ≤ failing.size) completed []
      (plan.run patience stream) := by
  have sorted := plan.trialsOf_sorted plan.sizes.grid_ascending
  rw [shape, List.pairwise_append] at sorted
  have listed : ∀ tried ∈ completed,
      tried.trial.size ∈ plan.sizes.grid.filter fun one => one ≤ failing.size := by
    intro tried member
    -- The failing trial comes behind all completed ones, so its size is none of the smaller ones.
    have early : tried.trial ∈ completed.map Tried.trial := List.mem_map_of_mem member
    have among : tried.trial ∈ plan.trialsOf plan.sizes.grid := shape ▸ List.mem_append_left _ early
    have below := sorted.2.2 tried.trial early failing (by simp)
    simpa [below] using size_of_mem_trialsOf among
  rw [run_of_stopped steps stopped]
  exact tells_of_told plan.sizes.grid_ascending ⟨failing :: rest, shape.symm⟩ List.filter_sublist listed
    (List.append_nil _).symm (fun progress => rfl) rfl

end

/-- A shared sweep is its trials made over again. If it returns records, they are those of all trials, it has told of
each size and of its records, and last of their number. If a trial fails it, that trial fails the rerun, for the same
cause, and it has told of the sizes up to that of the failing trial and of the trials before it, and of no end. -/
theorem sweep_channels {plan : Plan} (accepted : plan.validate = .ok ()) (patience : Nat) (stream : Stream) :
    (∀ records, (plan.sweep true patience stream).outcome = .ok records →
      ∃ completed,
        plan.rerun patience (plan.trialsOf plan.sizes.grid) stream =
            { completed, stopped := none, stream := (plan.sweep true patience stream).stream } ∧
          completed.map Tried.trial = plan.trialsOf plan.sizes.grid ∧
          records = completed.map Tried.record ∧
          plan.Tells plan.sizes.grid completed
            [.entry "DEBUG" "sweep finished" [("records", .number records.length)],
              .call (.sweepEnded records.length),
              .entry "INFO" "all population sizes done" [("records", .number records.length)]]
            (plan.sweep true patience stream)) ∧
      ∀ size cause, (plan.sweep true patience stream).outcome = .error (.failed (.trial size cause)) →
        ∃ completed failing rest,
          plan.rerun patience (plan.trialsOf plan.sizes.grid) stream =
              { completed
                stopped := some (failing, .failed (.trial size cause))
                stream := (plan.sweep true patience stream).stream } ∧
            completed.map Tried.trial ++ failing :: rest = plan.trialsOf plan.sizes.grid ∧
            failing.size = size ∧
            plan.Tells (plan.sizes.grid.filter fun one => one ≤ size) completed []
              (plan.sweep true patience stream) := by
  have steps := step_pos accepted
  cases room : plan.checkRoom true with
  | error fault => simp [sweep, room]
  | ok _ =>
      have ran : plan.sweep true patience stream = plan.run patience stream := by simp [sweep, room]
      rw [ran]
      rcases rerunIs : plan.rerun patience (plan.trialsOf plan.sizes.grid) stream with
        ⟨completed, _ | ⟨failing, stop⟩, left⟩
      next =>
        have report := run_of_ended steps rerunIs
        have all := rerun_complete (congrArg Rerun.stopped rerunIs)
        rw [rerunIs] at all
        constructor
        next =>
          intro records returned
          obtain rfl : completed.map Tried.record = records := by simpa [report] using returned
          refine ⟨completed, by rw [report], all, rfl, ?_⟩
          rw [List.length_map]
          exact run_ended_tells steps rerunIs
        next =>
          intro size cause failed
          simp [report] at failed
      next =>
        have report := run_of_stopped steps rerunIs
        obtain ⟨rest, shape⟩ := rerun_cut (congrArg Rerun.stopped rerunIs)
        rw [rerunIs] at shape
        constructor
        next =>
          intro records returned
          simp [report] at returned
        next =>
          intro size cause failed
          obtain rfl : stop = .failed (.trial size cause) := by simpa [report] using failed
          obtain rfl := size_of_stopped (congrArg Rerun.stopped rerunIs)
          exact ⟨completed, failing, rest, by rw [report], shape.symm, rfl, run_stopped_tells steps rerunIs shape⟩

/-- On this stream the short plan succeeds under a cap of nine; under a cap of two its third trial falls short. -/
theorem shortPlan_channels :
    (shortPlan 9).validate = .ok () ∧
      ((shortPlan 9).sweep true 20 (.ofSeed 2)).outcome = .ok shortRecords ∧
      ((shortPlan 9).sweep true 20 (.ofSeed 2)).events =
        [.sizeStarted 1] ++ (shortRecords.take 2).map .trialEnded ++
          [.sizeStarted 3] ++ (shortRecords.drop 2).map .trialEnded ++ [.sweepEnded 4] ∧
      (shortPlan 2).validate = .ok () ∧
      ((shortPlan 2).sweep true 20 (.ofSeed 2)).outcome =
        .error (.failed (.trial 3 (.capped { size := 3, rounds := 2, infected := 2 }))) ∧
      ((Progress.ofTotal 2).interleave ((shortPlan 2).sweep true 20 (.ofSeed 2)).notices).map Notice.line =
        [.call (.sizeStarted 1),
          .entry "DEBUG" "sweep position" [("n", .number 1), ("progress", .text "1/2")],
          .entry "INFO" "population size started" [("n", .number 1)],
          .entry "TRACE" "trial finished"
            [("n", .number 1), ("rep", .number 0), ("seeded", .truth false), ("rounds", .number 2)],
          .call (.trialEnded { size := 1, seeded := false, rounds := 2 }),
          .entry "TRACE" "trial finished"
            [("n", .number 1), ("rep", .number 0), ("seeded", .truth true), ("rounds", .number 2)],
          .call (.trialEnded { size := 1, seeded := true, rounds := 2 }), .call (.sizeStarted 3),
          .entry "DEBUG" "sweep position" [("n", .number 3), ("progress", .text "2/2")],
          .entry "INFO" "population size started" [("n", .number 3)]] := by
  have accepted : (shortPlan 9).validate = .ok () := by decide
  have returned : ((shortPlan 9).sweep true 20 (.ofSeed 2)).outcome = .ok shortRecords := by
    decide +kernel
  have acceptedToo : (shortPlan 2).validate = .ok () := by decide
  have failed : ((shortPlan 2).sweep true 20 (.ofSeed 2)).outcome =
      .error (.failed (.trial 3 (.capped { size := 3, rounds := 2, infected := 2 }))) := by
    decide +kernel
  obtain ⟨completed, _, _, records, tells⟩ := (sweep_channels accepted 20 (.ofSeed 2)).1 _ returned
  obtain ⟨early, failing, rest, again, _, _, cut⟩ :=
    (sweep_channels acceptedToo 20 (.ofSeed 2)).2 _ _ failed
  have earlyIs : early =
      [{ trial := { size := 1, repetition := 0, seeded := false }, rounds := 2 },
        { trial := { size := 1, repetition := 0, seeded := true }, rounds := 2 }] := by
    have first : early =
        ((shortPlan 2).rerun 20 ((shortPlan 2).trialsOf (shortPlan 2).sizes.grid) (.ofSeed 2)).completed := by
      rw [again]
    rw [first]
    decide +kernel
  refine ⟨accepted, returned, ?_, acceptedToo, failed, ?_⟩
  · rw [tells.events, ← records]
    decide
  · rw [earlyIs] at cut
    exact cut.interleaved

end Plan

end Rumour

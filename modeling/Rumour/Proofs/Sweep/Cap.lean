import Rumour.Proofs.Epidemic.Cap
import Rumour.Proofs.Sweep.Channels

set_option autoImplicit false

/-!
Sweeps under a cap. A cap has no part in what a trial draws, so a sweep under it makes the trials that it would
make without one, up to the first that takes more rounds than the cap allows.
-/

namespace Rumour.Plan

open Rumour.Random

def withCap (plan : Plan) (cap : Option Nat) : Plan :=
  { plan with maxRounds := cap }

@[simp] theorem sizes_withCap (plan : Plan) (cap : Option Nat) : (plan.withCap cap).sizes = plan.sizes := rfl

@[simp] theorem parametersFor_withCap (plan : Plan) (cap : Option Nat) (size : Nat) (seeded : Bool) :
    (plan.withCap cap).parametersFor size seeded = (plan.parametersFor size seeded).withCap cap := rfl

@[simp] theorem validate_withCap (plan : Plan) (cap : Option Nat) :
    (plan.withCap cap).validate = plan.validate := rfl

@[simp] theorem checkRoom_withCap (plan : Plan) (cap : Option Nat) (shared : Bool) :
    (plan.withCap cap).checkRoom shared = plan.checkRoom shared := rfl

def capStop (size cap infected : Nat) : SweepStop :=
  .failed (.trial size (.capped { size, rounds := max cap 2, infected }))

section

variable {plan : Plan} {patience cap : Nat} {stream left : Stream}

/-! Trials made over again -/

theorem rerun_cons_ended {trial : Trial} {rest : List Trial} {completed : List Tried} :
    plan.rerun patience (trial :: rest) stream = { completed, stopped := none, stream := left } ↔
      ∃ rounds middle others,
        simulate patience (plan.parametersFor trial.size trial.seeded) stream = .ok (.ok rounds) middle ∧
          plan.rerun patience rest middle = { completed := others, stopped := none, stream := left } ∧
          completed = { trial, rounds } :: others := by
  simp only [rerun]
  cases simulate patience (plan.parametersFor trial.size trial.seeded) stream with
  | error halt middle => simp
  | ok result middle =>
      cases result with
      | error fault => simp
      | ok rounds =>
          rcases remaining : plan.rerun patience rest middle with ⟨others, stopped, last⟩
          simp [remaining, eq_comm, and_comm, and_assoc]

theorem rerun_withCap {trials : List Trial} {completed : List Tried}
    (ended : plan.rerun patience trials stream = { completed, stopped := none, stream := left })
    (within : ∀ tried ∈ completed, tried.rounds ≤ max cap 2) :
    (plan.withCap (some cap)).rerun patience trials stream =
      { completed, stopped := none, stream := left } := by
  induction trials generalizing stream completed with
  | nil => exact ended
  | cons trial rest ih =>
      obtain ⟨rounds, middle, others, ran, later, rfl⟩ := rerun_cons_ended.1 ended
      obtain ⟨first, restWithin⟩ := List.forall_mem_cons.1 within
      exact rerun_cons_ended.2 ⟨rounds, middle, others, simulate_withCap ran first, ih later restWithin, rfl⟩

theorem rerun_cut_withCap {trials : List Trial} {front later : List Tried} {slow : Tried}
    (ended : plan.rerun patience trials stream =
      { completed := front ++ slow :: later, stopped := none, stream := left })
    (within : ∀ tried ∈ front, tried.rounds ≤ max cap 2) (beyond : max cap 2 < slow.rounds) :
    ∃ infected middle, (plan.withCap (some cap)).rerun patience trials stream =
      { completed := front
        stopped := some (slow.trial, capStop slow.trial.size cap infected)
        stream := middle } := by
  -- On the trials: the first one is the slow one, or the cap lets it pass and leaves the rest the same stream.
  induction trials generalizing stream front with
  | nil => simp [rerun] at ended
  | cons trial rest ih =>
      obtain ⟨rounds, middle, others, ran, remaining, shape⟩ := rerun_cons_ended.1 ended
      cases front with
      | nil =>
          obtain ⟨rfl, _⟩ := List.cons.inj shape
          obtain ⟨infected, last, cut⟩ := simulate_cut ran beyond
          refine ⟨infected, last, ?_⟩
          simp only [rerun, parametersFor_withCap, cut]
          rfl
      | cons tried front =>
          obtain ⟨rfl, rfl⟩ := List.cons.inj shape
          obtain ⟨first, frontWithin⟩ := List.forall_mem_cons.1 within
          obtain ⟨infected, last, stops⟩ := ih remaining frontWithin
          refine ⟨infected, last, ?_⟩
          simp only [rerun, parametersFor_withCap, simulate_withCap ran first, stops]

/-! Partitioned sweeps -/

theorem runPart_eq_ok_iff {part : Part} {batch : List Record} :
    plan.runPart patience part = .ok batch ↔
      ∃ completed left, plan.rerun patience (plan.trialsAt part.size) part.stream =
          { completed, stopped := none, stream := left } ∧ completed.map Tried.record = batch := by
  rw [runPart_eq_rerun]
  rcases plan.rerun patience (plan.trialsAt part.size) part.stream with
    ⟨completed, _ | ⟨failing, stop⟩, left⟩ <;> simp [reportOf]

theorem runPart_withCap {part : Part} {batch : List Record} (returned : plan.runPart patience part = .ok batch)
    (within : ∀ record ∈ batch, record.rounds ≤ max cap 2) :
    (plan.withCap (some cap)).runPart patience part = .ok batch := by
  obtain ⟨completed, left, ended, rfl⟩ := runPart_eq_ok_iff.1 returned
  exact runPart_eq_ok_iff.2 ⟨completed, left, rerun_withCap ended (List.forall_mem_map.1 within), rfl⟩

theorem split_records {completed : List Tried} {front later : List Record} {slow : Record}
    (shape : completed.map Tried.record = front ++ slow :: later) :
    ∃ early tried late, completed = early ++ tried :: late ∧ early.map Tried.record = front ∧
      tried.record = slow := by
  obtain ⟨early, others, rfl, rfl, tail⟩ := List.map_eq_append_iff.1 shape
  obtain ⟨tried, late, rfl, rfl, _⟩ := List.map_eq_cons_iff.1 tail
  exact ⟨early, tried, late, rfl, rfl, rfl⟩

theorem runPart_cut_withCap {part : Part} {front later : List Record} {slow : Record}
    (returned : plan.runPart patience part = .ok (front ++ slow :: later))
    (within : ∀ record ∈ front, record.rounds ≤ max cap 2) (beyond : max cap 2 < slow.rounds) :
    ∃ infected, (plan.withCap (some cap)).runPart patience part =
      .error (capStop slow.size cap infected) := by
  obtain ⟨completed, left, ended, shape⟩ := runPart_eq_ok_iff.1 returned
  obtain ⟨early, tried, late, rfl, rfl, rfl⟩ := split_records shape
  obtain ⟨infected, middle, stops⟩ := rerun_cut_withCap ended (List.forall_mem_map.1 within) beyond
  refine ⟨infected, ?_⟩
  have trials : (plan.withCap (some cap)).trialsAt part.size = plan.trialsAt part.size := rfl
  rw [runPart_eq_rerun, trials, stops]
  rfl

theorem runParts_withCap {parts : List Part} {batches : List (List Record)}
    (returned : parts.mapM (plan.runPart patience) = .ok batches)
    (within : ∀ record ∈ batches.flatten, record.rounds ≤ max cap 2) :
    parts.mapM ((plan.withCap (some cap)).runPart patience) = .ok batches := by
  induction parts generalizing batches with
  | nil => exact returned
  | cons part rest ih =>
      obtain ⟨batch, others, first, remaining, rfl⟩ := mapM_cons_eq_ok.1 returned
      rw [List.flatten_cons, List.forall_mem_append] at within
      exact mapM_cons_eq_ok.2
        ⟨batch, others, runPart_withCap first within.1, ih remaining within.2, rfl⟩

theorem runParts_cut_withCap {parts : List Part} {batches : List (List Record)} {front later : List Record}
    {slow : Record} (returned : parts.mapM (plan.runPart patience) = .ok batches)
    (shape : batches.flatten = front ++ slow :: later)
    (within : ∀ record ∈ front, record.rounds ≤ max cap 2) (beyond : max cap 2 < slow.rounds) :
    ∃ infected, parts.mapM ((plan.withCap (some cap)).runPart patience) =
      .error (capStop slow.size cap infected) := by
  induction parts generalizing batches front with
  | nil =>
      cases returned
      simp at shape
  | cons part rest ih =>
      obtain ⟨batch, others, first, remaining, rfl⟩ := mapM_cons_eq_ok.1 returned
      -- The slow record is in a later part, or it is in this one.
      have place : (∃ more, front = batch ++ more ∧ others.flatten = more ++ slow :: later) ∨
          ∃ more, batch = front ++ slow :: more := by
        rcases List.append_eq_append_iff.1 shape with ⟨more, before, behind⟩ | ⟨more, before, behind⟩
        · exact .inl ⟨more, before, behind⟩
        · rcases List.cons_eq_append_iff.1 behind with ⟨rfl, behind⟩ | ⟨more, rfl, _⟩
          · exact .inl ⟨[], by simpa using before.symm, behind.symm⟩
          · exact .inr ⟨more, before⟩
      rw [List.mapM_cons]
      rcases place with ⟨more, rfl, behind⟩ | ⟨more, rfl⟩
      · rw [List.forall_mem_append] at within
        obtain ⟨infected, stops⟩ := ih remaining behind within.2
        refine ⟨infected, ?_⟩
        rw [runPart_withCap first within.1, stops]
        rfl
      · obtain ⟨infected, stops⟩ := runPart_cut_withCap first within beyond
        refine ⟨infected, ?_⟩
        rw [stops]
        rfl

theorem runPartitioned_withCap {records : List Record}
    (returned : (plan.runPartitioned patience stream).outcome = .ok records)
    (within : ∀ record ∈ records, record.rounds ≤ max cap 2) :
    (plan.withCap (some cap)).runPartitioned patience stream = plan.runPartitioned patience stream := by
  rw [outcome_runPartitioned] at returned
  cases ran : (parts plan.sizes.toList stream).1.mapM (plan.runPart patience) with
  | error stop =>
      rw [ran] at returned
      cases returned
  | ok batches =>
      rw [ran] at returned
      cases returned
      have again := runParts_withCap ran within
      rw [runPartitioned_eq plan, ran, runPartitioned_eq, sizes_withCap, again]

theorem runPartitioned_cut_withCap {front later : List Record} {slow : Record}
    (returned : (plan.runPartitioned patience stream).outcome = .ok (front ++ slow :: later))
    (within : ∀ record ∈ front, record.rounds ≤ max cap 2) (beyond : max cap 2 < slow.rounds) :
    ∃ infected, ((plan.withCap (some cap)).runPartitioned patience stream).outcome =
        .error (capStop slow.size cap infected) ∧
      ((plan.withCap (some cap)).runPartitioned patience stream).events = [] := by
  rw [outcome_runPartitioned] at returned
  cases ran : (parts plan.sizes.toList stream).1.mapM (plan.runPart patience) with
  | error stop =>
      rw [ran] at returned
      cases returned
  | ok batches =>
      rw [ran] at returned
      obtain ⟨infected, stops⟩ := runParts_cut_withCap ran (Except.ok.inj returned) within beyond
      refine ⟨infected, ?_⟩
      rw [runPartitioned_eq, sizes_withCap, stops]
      exact ⟨rfl, rfl⟩

/-! Shared sweeps -/

theorem run_eq_ok (steps : 0 < plan.sizes.step) {records : List Record}
    (returned : (plan.run patience stream).outcome = .ok records) :
    ∃ completed left, plan.rerun patience (plan.trialsOf plan.sizes.grid) stream =
        { completed, stopped := none, stream := left } ∧ completed.map Tried.record = records := by
  rcases rerunIs : plan.rerun patience (plan.trialsOf plan.sizes.grid) stream with
    ⟨completed, _ | ⟨failing, stop⟩, left⟩
  · rw [run_of_ended steps rerunIs] at returned
    exact ⟨completed, left, rfl, Except.ok.inj returned⟩
  · rw [run_of_stopped steps rerunIs] at returned
    cases returned

theorem run_withCap (steps : 0 < plan.sizes.step) {records : List Record}
    (returned : (plan.run patience stream).outcome = .ok records)
    (within : ∀ record ∈ records, record.rounds ≤ max cap 2) :
    (plan.withCap (some cap)).run patience stream = plan.run patience stream := by
  obtain ⟨completed, left, ended, rfl⟩ := run_eq_ok steps returned
  have again := rerun_withCap ended (List.forall_mem_map.1 within)
  have stepsToo : 0 < (plan.withCap (some cap)).sizes.step := steps
  rw [run_of_ended steps ended, run_of_ended stepsToo again]
  rfl

theorem run_cut_withCap (steps : 0 < plan.sizes.step) {front later : List Record} {slow : Record}
    (returned : (plan.run patience stream).outcome = .ok (front ++ slow :: later))
    (within : ∀ record ∈ front, record.rounds ≤ max cap 2) (beyond : max cap 2 < slow.rounds) :
    ∃ infected, ((plan.withCap (some cap)).run patience stream).outcome =
        .error (capStop slow.size cap infected) ∧
      ((plan.withCap (some cap)).run patience stream).events =
        (plan.sizes.grid.filter fun size => size ≤ slow.size).flatMap (fun size =>
          .sizeStarted size :: (front.filter fun record => record.size = size).map .trialEnded) ∧
      ((plan.withCap (some cap)).run patience stream).events.filterMap SweepEvent.record? = front := by
  obtain ⟨completed, left, ended, shape⟩ := run_eq_ok steps returned
  obtain ⟨early, tried, late, rfl, rfl, rfl⟩ := split_records shape
  obtain ⟨infected, middle, stops⟩ := rerun_cut_withCap ended (List.forall_mem_map.1 within) beyond
  obtain ⟨rest, cut⟩ := rerun_cut (congrArg Rerun.stopped stops)
  rw [stops] at cut
  have stepsToo : 0 < (plan.withCap (some cap)).sizes.step := steps
  have report := run_of_stopped stepsToo stops
  have tells := run_stopped_tells stepsToo stops cut
  refine ⟨infected, ?_, tells.events.trans (List.append_nil _), tells.records⟩
  rw [report]
  rfl

/-! Both -/

/-- A plan whose sweep returns records is accepted under every cap. Where no record took more rounds than the cap, or
than two, the sweep under the cap is the same. Else it stops at the size of the first record that did, having told of
the records before it, if it is shared, or of nothing. -/
theorem sweep_cap {plan : Plan} (accepted : plan.validate = .ok ()) (shared : Bool) (patience : Nat)
    (stream : Stream) (records : List Record)
    (returned : (plan.sweep shared patience stream).outcome = .ok records) (cap : Nat) :
    (plan.withCap (some cap)).validate = .ok () ∧
      ((∀ record ∈ records, record.rounds ≤ max cap 2) →
        (plan.withCap (some cap)).sweep shared patience stream = plan.sweep shared patience stream) ∧
      ∀ front slow later, records = front ++ slow :: later →
        (∀ record ∈ front, record.rounds ≤ max cap 2) → max cap 2 < slow.rounds →
          ∃ infected, ((plan.withCap (some cap)).sweep shared patience stream).outcome =
              .error (.failed
                (.trial slow.size (.capped { size := slow.size, rounds := max cap 2, infected }))) ∧
            ((plan.withCap (some cap)).sweep shared patience stream).events =
              (if shared then
                (plan.sizes.grid.filter fun size => size ≤ slow.size).flatMap (fun size =>
                  .sizeStarted size :: (front.filter fun record => record.size = size).map .trialEnded)
              else []) ∧
            ((plan.withCap (some cap)).sweep shared patience stream).events.filterMap
                SweepEvent.record? =
              (if shared then front else []) := by
  have steps := step_pos accepted
  have room := checkRoom_of_ok returned
  refine ⟨accepted, fun within => ?_, fun front slow later shape within beyond => ?_⟩
  next =>
    simp only [sweep, checkRoom_withCap, room] at returned ⊢
    cases shared with
    | true => exact run_withCap steps returned within
    | false => exact runPartitioned_withCap returned within
  next =>
    subst shape
    simp only [sweep, checkRoom_withCap, room] at returned ⊢
    cases shared with
    | true => exact run_cut_withCap steps returned within beyond
    | false =>
        obtain ⟨infected, stops, silent⟩ := runPartitioned_cut_withCap returned within beyond
        refine ⟨infected, stops, silent, ?_⟩
        rw [if_neg (by simp), silent]
        rfl

/-- Without a cap the third trial of the short plan takes three rounds, which three allow and none does not. -/
theorem shortPlan_cap :
    ((shortPlan 0).withCap none).validate = .ok () ∧
      (((shortPlan 0).withCap none).sweep true 20 (.ofSeed 2)).outcome = .ok shortRecords ∧
      ((((shortPlan 0).withCap none).withCap (some 3)).sweep true 20 (.ofSeed 2)).outcome =
        .ok shortRecords ∧
      ∃ infected,
        ((((shortPlan 0).withCap none).withCap (some 0)).sweep true 20 (.ofSeed 2)).outcome =
            .error (.failed (.trial 3 (.capped { size := 3, rounds := 2, infected }))) ∧
          ((((shortPlan 0).withCap none).withCap (some 0)).sweep true 20 (.ofSeed 2)).events.filterMap
              SweepEvent.record? =
            shortRecords.take 2 := by
  have accepted : ((shortPlan 0).withCap none).validate = .ok () := by decide
  have returned : (((shortPlan 0).withCap none).sweep true 20 (.ofSeed 2)).outcome = .ok shortRecords := by
    decide +kernel
  have generous := (sweep_cap accepted true 20 (.ofSeed 2) shortRecords returned 3).2.1 (by decide)
  have split : shortRecords =
      shortRecords.take 2 ++ { size := 3, seeded := false, rounds := 3 } :: shortRecords.drop 3 := rfl
  obtain ⟨infected, stops, _, told⟩ :=
    (sweep_cap accepted true 20 (.ofSeed 2) shortRecords returned 0).2.2 _ _ _ split (by decide) (by decide)
  exact ⟨accepted, returned, by rw [generous, returned], infected, stops, told⟩

end

end Rumour.Plan

import Rumour.Proofs.Sweep.Apart
import Rumour.Proofs.Sweep.Rerun

set_option autoImplicit false

/-!
Orders in which workers run the parts of a sweep. The streams of all parts are derived beforehand, and each result
goes into the slot of its size, so a pool of slots is determined by which parts have been run. A sweep comes to the
same records in every order, and where a part fails it fails in every order.
-/

namespace Rumour.Plan

open Rumour.Random

inductive Slot where
  | waiting (part : Part)
  | filled (result : Except SweepStop (List Record))

/-- The stream that is left of the one the children were derived from, and a slot for each size in order. -/
structure Pool where
  master : Stream
  slots : List Slot

def openPool (plan : Plan) (stream : Stream) : Pool :=
  let (members, master) := parts plan.sizes.toList stream
  { master, slots := members.map .waiting }

/-- Any part that waits may be run next, on its own stream; its result goes into its slot. -/
inductive Step (plan : Plan) (patience : Nat) : Pool -> Part -> Pool -> Prop where
  | run (master : Stream) (before after : List Slot) (part : Part) :
      plan.Step patience { master, slots := before ++ .waiting part :: after } part
        { master, slots := before ++ .filled (plan.runPart patience part) :: after }

inductive Runs (plan : Plan) (patience : Nat) : Pool -> List Part -> Pool -> Prop where
  | nil (pool : Pool) : plan.Runs patience pool [] pool
  | cons {pool next last : Pool} {part : Part} {rest : List Part} (step : plan.Step patience pool part next)
      (later : plan.Runs patience next rest last) : plan.Runs patience pool (part :: rest) last

/-- What a pool answers: the records of all slots in order or, perhaps before all are filled, any failure. -/
inductive Pool.Answers : Pool -> Except SweepStop (List Record) -> Prop where
  | merged (master : Stream) (batches : List (List Record)) :
      Answers { master, slots := batches.map fun batch => .filled (.ok batch) } (.ok batches.flatten)
  | failed (pool : Pool) (stop : SweepStop) (held : .filled (.error stop) ∈ pool.slots) :
      Answers pool (.error stop)

/-! Pools by the parts that have been run -/

def slotOf (plan : Plan) (patience : Nat) (done : List Part) (part : Part) : Slot :=
  if part ∈ done then .filled (plan.runPart patience part) else .waiting part

def poolOf (plan : Plan) (patience : Nat) (master : Stream) (members done : List Part) : Pool :=
  { master, slots := members.map (plan.slotOf patience done) }

section

variable {plan : Plan} {patience : Nat} {master : Stream} {members done order : List Part} {part : Part}
  {pool next last : Pool}

theorem openPool_eq (plan : Plan) (patience : Nat) (stream : Stream) :
    plan.openPool stream =
      plan.poolOf patience (parts plan.sizes.toList stream).2 (parts plan.sizes.toList stream).1 [] := by
  have waiting : plan.slotOf patience [] = Slot.waiting := by
    funext part
    simp [slotOf]
  rw [poolOf, waiting]
  rfl

theorem slotOf_eq_waiting_iff {other : Part} :
    plan.slotOf patience done part = .waiting other ↔ part = other ∧ part ∉ done := by
  by_cases run : part ∈ done <;> simp [slotOf, run]

theorem slotOf_eq_filled_iff {result : Except SweepStop (List Record)} :
    plan.slotOf patience done part = .filled result ↔ part ∈ done ∧ plan.runPart patience part = result := by
  by_cases run : part ∈ done <;> simp [slotOf, run]

theorem slotOf_cons_of_ne {other : Part} (different : other ≠ part) :
    plan.slotOf patience (part :: done) other = plan.slotOf patience done other := by
  simp [slotOf, different]

theorem poolOf_congr {others : List Part} (same : ∀ part, part ∈ done ↔ part ∈ others) :
    plan.poolOf patience master members done = plan.poolOf patience master members others := by
  have sameSlots : plan.slotOf patience done = plan.slotOf patience others := by
    funext part
    simp only [slotOf, same part]
  rw [poolOf, poolOf, sameSlots]

theorem map_slotOf_cons {front back : List Part} (distinct : (front ++ part :: back).Nodup) :
    (front ++ part :: back).map (plan.slotOf patience (part :: done)) =
      front.map (plan.slotOf patience done) ++ .filled (plan.runPart patience part) ::
        back.map (plan.slotOf patience done) := by
  -- Without repetition no other slot looks at this part.
  obtain ⟨_, others, apart⟩ := List.nodup_append.1 distinct
  have inFront : ∀ other ∈ front, other ≠ part := fun other member same =>
    apart other member part (by simp) same
  have inBack : ∀ other ∈ back, other ≠ part := fun other member same =>
    (List.nodup_cons.1 others).1 (same ▸ member)
  have itself : plan.slotOf patience (part :: done) part = .filled (plan.runPart patience part) :=
    slotOf_eq_filled_iff.2 ⟨by simp, rfl⟩
  rw [List.map_append, List.map_cons, itself]
  congr 1
  · exact List.map_congr_left fun other member => slotOf_cons_of_ne (inFront other member)
  · congr 1
    exact List.map_congr_left fun other member => slotOf_cons_of_ne (inBack other member)

theorem step_iff (distinct : members.Nodup) :
    plan.Step patience (plan.poolOf patience master members done) part next ↔
      part ∈ members ∧ part ∉ done ∧ next = plan.poolOf patience master members (part :: done) := by
  constructor
  next =>
    intro step
    generalize start : plan.poolOf patience master members done = pool at step
    cases step with
    | run _ before after =>
        -- The slot that waits is that of a member, and the slots around it are those of the members around this one.
        obtain ⟨rfl, slots⟩ := Pool.mk.inj start
        obtain ⟨front, rest, rfl, rfl, tail⟩ := List.map_eq_append_iff.1 slots
        obtain ⟨other, back, rfl, head, rfl⟩ := List.map_eq_cons_iff.1 tail
        obtain ⟨rfl, fresh⟩ := slotOf_eq_waiting_iff.1 head
        refine ⟨by simp, fresh, ?_⟩
        rw [poolOf, map_slotOf_cons distinct]
  next =>
    intro able
    obtain ⟨member, fresh, rfl⟩ := able
    obtain ⟨front, back, rfl⟩ := List.append_of_mem member
    have waiting : plan.slotOf patience done part = .waiting part := slotOf_eq_waiting_iff.2 ⟨rfl, fresh⟩
    rw [poolOf, poolOf, map_slotOf_cons distinct, List.map_append, List.map_cons, waiting]
    exact .run master _ _ part

theorem runs_iff (distinct : members.Nodup) :
    plan.Runs patience (plan.poolOf patience master members done) order last ↔
      order.Nodup ∧ (∀ part ∈ order, part ∈ members ∧ part ∉ done) ∧
        last = plan.poolOf patience master members (order ++ done) := by
  -- On the order, for every set of parts that have been run already.
  induction order generalizing done with
  | nil =>
      constructor
      next =>
        intro ran
        cases ran
        simp
      next =>
        rintro ⟨_, _, rfl⟩
        exact .nil _
  | cons part rest ih =>
      have moved : plan.poolOf patience master members (rest ++ part :: done) =
          plan.poolOf patience master members (part :: rest ++ done) := by
        apply poolOf_congr
        intro other
        simp only [List.mem_append, List.mem_cons, List.cons_append]
        tauto
      constructor
      next =>
        intro ran
        cases ran with
        | cons step later =>
            obtain ⟨member, fresh, rfl⟩ := (step_iff distinct).1 step
            obtain ⟨restDistinct, restFresh, rfl⟩ := ih.1 later
            refine ⟨List.nodup_cons.2 ⟨fun again => ?_, restDistinct⟩, ?_, moved⟩
            · exact (restFresh part again).2 (by simp)
            · refine List.forall_mem_cons.2 ⟨⟨member, fresh⟩, fun other listed => ?_⟩
              obtain ⟨otherMember, otherFresh⟩ := restFresh other listed
              exact ⟨otherMember, fun run => otherFresh (List.mem_cons_of_mem _ run)⟩
      next =>
        rintro ⟨orderDistinct, orderFresh, rfl⟩
        obtain ⟨absent, restDistinct⟩ := List.nodup_cons.1 orderDistinct
        obtain ⟨⟨member, fresh⟩, restFresh⟩ := List.forall_mem_cons.1 orderFresh
        refine .cons ((step_iff distinct).2 ⟨member, fresh, rfl⟩) (ih.2 ⟨restDistinct, ?_, moved.symm⟩)
        intro other listed
        obtain ⟨otherMember, otherFresh⟩ := restFresh other listed
        refine ⟨otherMember, fun run => ?_⟩
        rcases List.mem_cons.1 run with rfl | run
        · exact absent listed
        · exact otherFresh run

end

section

variable {plan : Plan} {patience : Nat} {master : Stream} {members done : List Part}

theorem answers_ok {records : List Record}
    (answered : (plan.poolOf patience master members done).Answers (.ok records)) :
    (∀ part ∈ members, part ∈ done) ∧
      ∃ batches, members.mapM (plan.runPart patience) = .ok batches ∧ batches.flatten = records := by
  generalize shape : plan.poolOf patience master members done = pool at answered
  cases answered with
  | merged _ batches =>
      obtain ⟨_, slots⟩ := Pool.mk.inj shape
      have filled : ∀ part ∈ members, ∃ batch, plan.slotOf patience done part = .filled (.ok batch) := by
        intro part member
        have listed := List.mem_map_of_mem (f := plan.slotOf patience done) member
        rw [slots] at listed
        obtain ⟨batch, _, same⟩ := List.mem_map.1 listed
        exact ⟨batch, same.symm⟩
      -- Results are compared through their slots, which hold them injectively.
      have results : members.map (plan.runPart patience) = batches.map .ok := by
        apply List.map_injective_iff.2 (fun first second same => Slot.filled.inj same)
        rw [List.map_map, List.map_map]
        refine Eq.trans (List.map_congr_left fun part member => ?_) slots
        obtain ⟨batch, same⟩ := filled part member
        exact same ▸ congrArg Slot.filled (slotOf_eq_filled_iff.1 same).2
      refine ⟨fun part member => ?_, batches, mapM_eq_ok_of_map results, rfl⟩
      obtain ⟨batch, same⟩ := filled part member
      exact (slotOf_eq_filled_iff.1 same).1

theorem answers_error {stop : SweepStop}
    (answered : (plan.poolOf patience master members done).Answers (.error stop)) :
    ∃ part ∈ members, plan.runPart patience part = .error stop := by
  generalize shape : plan.poolOf patience master members done = pool at answered
  cases answered with
  | failed _ _ held =>
      rw [← shape] at held
      obtain ⟨part, member, same⟩ := List.mem_map.1 held
      exact ⟨part, member, (slotOf_eq_filled_iff.1 same).2⟩

theorem exists_answer (plan : Plan) (patience : Nat) (master : Stream) (all : ∀ part ∈ members, part ∈ done) :
    ∃ outcome, (plan.poolOf patience master members done).Answers outcome := by
  have filled : members.map (plan.slotOf patience done) =
      members.map fun part => .filled (plan.runPart patience part) :=
    List.map_congr_left fun part member => slotOf_eq_filled_iff.2 ⟨all part member, rfl⟩
  rw [poolOf, filled]
  -- Any failure in a slot is an answer; without one the slots are the batches in order.
  cases ran : members.mapM (plan.runPart patience) with
  | error stop =>
      obtain ⟨part, member, stopped⟩ := exists_of_mapM_error ran
      refine ⟨.error stop, .failed _ stop ?_⟩
      rw [← stopped]
      exact List.mem_map_of_mem member
  | ok batches =>
      have results := congrArg (List.map Slot.filled) (map_of_mapM_eq_ok ran)
      rw [List.map_map, List.map_map] at results
      refine ⟨.ok batches.flatten, ?_⟩
      change Pool.Answers { master, slots := members.map (Slot.filled ∘ plan.runPart patience) } _
      rw [results]
      exact .merged master batches

end

/-! The parts of a sweep -/

theorem nodup_parts {sizes : List Nat} (distinct : sizes.Nodup) (stream : Stream) :
    (parts sizes stream).1.Nodup := by
  apply List.Nodup.of_map Part.size
  rwa [map_size_parts]

theorem getElem?_parts (sizes : List Nat) (stream : Stream) (index : Nat) :
    (parts sizes stream).1[index]? =
      sizes[index]?.map fun size =>
        { size, stream := (Stream.child (UInt64.ofNat size) (stream.skip index)).1 } := by
  induction sizes generalizing stream index with
  | nil => rfl
  | cons size rest ih =>
      rw [parts_cons]
      cases index with
      | zero => rfl
      | succ index => exact ih stream.advance index

/-- A stop of the trials of one size on the child stream that is derived for it, and that names this size. -/
def StopsAt (plan : Plan) (patience : Nat) (stream : Stream) (stop : SweepStop) : Prop :=
  ∃ index size failing, plan.sizes.grid[index]? = some size ∧
    (plan.rerun patience (plan.trialsAt size)
      (Stream.child (UInt64.ofNat size) (stream.skip index)).1).stopped = some (failing, stop) ∧
    ∀ named cause, stop = .failed (.trial named cause) → named = size

section

variable {plan : Plan} {patience : Nat} {stream : Stream}

theorem runPart_eq_error_iff {part : Part} {stop : SweepStop} :
    plan.runPart patience part = .error stop ↔
      ∃ failing, (plan.rerun patience (plan.trialsAt part.size) part.stream).stopped = some (failing, stop) := by
  rw [runPart_eq_rerun]
  rcases plan.rerun patience (plan.trialsAt part.size) part.stream with
    ⟨completed, _ | ⟨failing, cause⟩, left⟩ <;> simp [reportOf]

theorem stopsAt_of_part (steps : 0 < plan.sizes.step) {part : Part} {stop : SweepStop}
    (member : part ∈ (parts plan.sizes.toList stream).1) (stopped : plan.runPart patience part = .error stop) :
    plan.StopsAt patience stream stop := by
  obtain ⟨index, listed⟩ := List.mem_iff_getElem?.1 member
  rw [getElem?_parts, Option.map_eq_some_iff, Sizes.toList_eq_grid steps] at listed
  obtain ⟨size, placed, rfl⟩ := listed
  obtain ⟨failing, again⟩ := runPart_eq_error_iff.1 stopped
  refine ⟨index, size, failing, placed, again, ?_⟩
  rintro named cause rfl
  exact (size_of_stopped again).symm.trans (size_of_mem_trialsAt (mem_of_stopped again))

theorem distinct_parts (steps : 0 < plan.sizes.step) (stream : Stream) :
    (parts plan.sizes.toList stream).1.Nodup :=
  nodup_parts ((Sizes.toList_ascending steps).imp Nat.ne_of_lt) stream

theorem runs_openPool_iff (steps : 0 < plan.sizes.step) {order : List Part} {last : Pool} :
    plan.Runs patience (plan.openPool stream) order last ↔
      order.Nodup ∧ (∀ part ∈ order, part ∈ (parts plan.sizes.toList stream).1) ∧
        last = plan.poolOf patience (parts plan.sizes.toList stream).2 (parts plan.sizes.toList stream).1 order := by
  rw [openPool_eq plan patience, runs_iff (distinct_parts steps stream), List.append_nil]
  simp

theorem answered_ok (steps : 0 < plan.sizes.step) {order : List Part} {last : Pool} {records : List Record}
    (ran : plan.Runs patience (plan.openPool stream) order last) (answered : last.Answers (.ok records)) :
    order.Perm (parts plan.sizes.toList stream).1 ∧
      (plan.runPartitioned patience stream).outcome = .ok records := by
  obtain ⟨orderDistinct, among, rfl⟩ := (runs_openPool_iff steps).1 ran
  obtain ⟨all, batches, returned, rfl⟩ := answers_ok answered
  constructor
  · exact (List.perm_ext_iff_of_nodup orderDistinct (distinct_parts steps stream)).2
      fun part => ⟨among part, all part⟩
  · rw [outcome_runPartitioned, returned]
    rfl

theorem answered_error (steps : 0 < plan.sizes.step) {order : List Part} {last : Pool} {stop : SweepStop}
    (ran : plan.Runs patience (plan.openPool stream) order last) (answered : last.Answers (.error stop)) :
    plan.StopsAt patience stream stop ∧ ∃ first, (plan.runPartitioned patience stream).outcome = .error first := by
  obtain ⟨_, _, rfl⟩ := (runs_openPool_iff steps).1 ran
  obtain ⟨part, member, stopped⟩ := answers_error answered
  refine ⟨stopsAt_of_part steps member stopped, ?_⟩
  rw [outcome_runPartitioned]
  cases all : (parts plan.sizes.toList stream).1.mapM (plan.runPart patience) with
  | error first => exact ⟨first, rfl⟩
  | ok batches =>
      -- Run in order, the part that fails would have returned a batch.
      obtain ⟨batch, returned⟩ := exists_ok_of_mem all member
      rw [stopped] at returned
      cases returned

theorem master_of_runs (steps : 0 < plan.sizes.step) {order : List Part} {last : Pool}
    (ran : plan.Runs patience (plan.openPool stream) order last) :
    last.master = (plan.runPartitioned patience stream).stream := by
  obtain ⟨_, _, rfl⟩ := (runs_openPool_iff steps).1 ran
  rw [stream_runPartitioned]
  rfl

theorem exists_rest (steps : 0 < plan.sizes.step) {begun : List Part} {pool : Pool}
    (ran : plan.Runs patience (plan.openPool stream) begun pool) :
    ∃ order last outcome, plan.Runs patience pool order last ∧ last.Answers outcome := by
  obtain ⟨_, _, rfl⟩ := (runs_openPool_iff steps).1 ran
  have distinct := distinct_parts steps stream
  -- A begun order goes on with the parts that are left.
  let left := (parts plan.sizes.toList stream).1.filter fun part => part ∉ begun
  have all : ∀ part ∈ (parts plan.sizes.toList stream).1, part ∈ left ++ begun := by
    intro part member
    by_cases done : part ∈ begun <;> simp [left, member, done]
  obtain ⟨outcome, answered⟩ := exists_answer plan patience (parts plan.sizes.toList stream).2 all
  refine ⟨left, _, outcome, (runs_iff distinct).2 ⟨distinct.filter _, fun part listed => ?_, rfl⟩, answered⟩
  simpa [left] using listed

/-- Every order of the parts comes to an answer, and so does every order that is begun. If one order answers with
records, it has run every part once, it leaves the stream and returns the records of the sweep that runs the parts in
order, and so does every other. If one answers with a failure, all of them do, each with that of a size whose trials
fail on the child stream of this size. -/
theorem schedule_independent {plan : Plan} (accepted : plan.validate = .ok ()) (patience : Nat)
    (stream : Stream) :
    (∀ order, order.Perm (parts plan.sizes.grid stream).1 →
      ∃ last outcome, plan.Runs patience (plan.openPool stream) order last ∧ last.Answers outcome) ∧
    (∀ begun pool, plan.Runs patience (plan.openPool stream) begun pool →
      ∃ order last outcome, plan.Runs patience pool order last ∧ last.Answers outcome) ∧
    ∀ order last outcome, plan.Runs patience (plan.openPool stream) order last → last.Answers outcome →
      last.master = (plan.runPartitioned patience stream).stream ∧
      (∀ records, outcome = .ok records →
        order.Perm (parts plan.sizes.grid stream).1 ∧
          (plan.runPartitioned patience stream).outcome = .ok records ∧
          ∀ other left answer, plan.Runs patience (plan.openPool stream) other left → left.Answers answer →
            answer = .ok records ∧ left.master = last.master) ∧
      ∀ stop, outcome = .error stop →
        plan.StopsAt patience stream stop ∧
          (∃ first, (plan.runPartitioned patience stream).outcome = .error first) ∧
          ∀ other left answer, plan.Runs patience (plan.openPool stream) other left → left.Answers answer →
            ∃ cause, answer = .error cause ∧ plan.StopsAt patience stream cause := by
  have steps := step_pos accepted
  rw [← Sizes.toList_eq_grid steps]
  refine ⟨fun order perm => ?_, fun begun pool ran => exists_rest steps ran,
    fun order last outcome ran answered => ?_⟩
  next =>
    obtain ⟨outcome, answered⟩ := exists_answer plan patience (parts plan.sizes.toList stream).2
      fun part => (perm.mem_iff (a := part)).2
    refine ⟨_, outcome, (runs_openPool_iff steps).2 ⟨?_, fun part => perm.mem_iff.1, rfl⟩, answered⟩
    exact perm.nodup_iff.2 (distinct_parts steps stream)
  next =>
    refine ⟨master_of_runs steps ran, ?_, ?_⟩
    next =>
      rintro records rfl
      obtain ⟨perm, returned⟩ := answered_ok steps ran answered
      refine ⟨perm, returned, fun other left answer ranToo answeredToo => ?_⟩
      rw [master_of_runs steps ran, master_of_runs steps ranToo]
      cases answer with
      | ok others =>
          have same := (answered_ok steps ranToo answeredToo).2
          rw [returned] at same
          exact ⟨same.symm, rfl⟩
      | error cause =>
          obtain ⟨_, first, stopped⟩ := answered_error steps ranToo answeredToo
          rw [returned] at stopped
          cases stopped
    next =>
      rintro stop rfl
      obtain ⟨stops, first, stopped⟩ := answered_error steps ran answered
      refine ⟨stops, ⟨first, stopped⟩, fun other left answer ranToo answeredToo => ?_⟩
      cases answer with
      | ok others =>
          have returned := (answered_ok steps ranToo answeredToo).2
          rw [stopped] at returned
          cases returned
      | error cause => exact ⟨cause, rfl, (answered_error steps ranToo answeredToo).1⟩

end

/-- The second size of the short plan can be run first; under a cap of two it fails then as well. -/
theorem shortPlan_schedules :
    (shortPlan 9).validate = .ok () ∧
      (∃ last, (shortPlan 9).Runs 20 ((shortPlan 9).openPool (.ofSeed 4)) (parts [1, 3] (.ofSeed 4)).1.reverse last ∧
        last.Answers (.ok shortRecords)) ∧
      (shortPlan 2).validate = .ok () ∧
      ∃ last stop,
        (shortPlan 2).Runs 20 ((shortPlan 2).openPool (.ofSeed 4)) (parts [1, 3] (.ofSeed 4)).1.reverse last ∧
          last.Answers (.error stop) ∧ (shortPlan 2).StopsAt 20 (.ofSeed 4) stop := by
  have accepted : (shortPlan 9).validate = .ok () := by decide
  have returned : ((shortPlan 9).runPartitioned 20 (.ofSeed 4)).outcome = .ok shortRecords := by decide +kernel
  have acceptedToo : (shortPlan 2).validate = .ok () := by decide
  have stopped : ((shortPlan 2).runPartitioned 20 (.ofSeed 4)).outcome =
      .error (.failed (.trial 3 (.capped { size := 3, rounds := 2, infected := 2 }))) := by decide +kernel
  obtain ⟨orders, _, answers⟩ := schedule_independent accepted 20 (.ofSeed 4)
  obtain ⟨ordersToo, _, answersToo⟩ := schedule_independent acceptedToo 20 (.ofSeed 4)
  obtain ⟨last, outcome, ran, answered⟩ := orders _ (List.reverse_perm _)
  obtain ⟨left, answer, ranToo, answeredToo⟩ := ordersToo _ (List.reverse_perm _)
  refine ⟨accepted, ⟨last, ran, ?_⟩, acceptedToo, left, ?_⟩
  next =>
    obtain ⟨_, succeeds, fails⟩ := answers _ _ _ ran answered
    cases outcome with
    | ok records =>
        obtain ⟨_, same, _⟩ := succeeds records rfl
        rw [returned] at same
        cases same
        exact answered
    | error stop =>
        obtain ⟨_, ⟨first, failed⟩, _⟩ := fails stop rfl
        rw [returned] at failed
        cases failed
  next =>
    obtain ⟨_, succeeds, fails⟩ := answersToo _ _ _ ranToo answeredToo
    cases answer with
    | ok records =>
        obtain ⟨_, same, _⟩ := succeeds records rfl
        rw [stopped] at same
        cases same
    | error stop => exact ⟨stop, ranToo, answeredToo, (fails stop rfl).1⟩

end Rumour.Plan

import Mathlib.Order.Basic
import Rumour.Proofs.Sweep.Channels

set_option autoImplicit false

/-!
Sweeps made in two. The sizes of a plan can be cut at any of them: a sweep of those before the cut and, on the
stream that it leaves, a sweep of the others make the sweep of all, whether it is shared or partitioned.
-/

namespace Rumour

open Rumour.Random

/-! Sizes -/

namespace Sizes

def upTo (sizes : Sizes) (stop : Nat) : Sizes :=
  { sizes with stop }

/-- The size that comes behind a number of others. -/
def nth (sizes : Sizes) (index : Nat) : Nat :=
  sizes.start + index * sizes.step

section

variable {sizes : Sizes}

theorem count_upTo_nth (steps : 0 < sizes.step) (cut : Nat) : (sizes.upTo (sizes.nth cut)).count = cut := by
  apply eq_of_forall_lt_iff
  intro index
  have stepsToo : 0 < (sizes.upTo (sizes.nth cut)).step := steps
  rw [lt_count_iff stepsToo]
  simp only [upTo, nth, Nat.mul_comm cut, Nat.add_lt_add_iff_left, Nat.mul_lt_mul_left steps]

theorem count_onFrom_nth (steps : 0 < sizes.step) (cut : Nat) :
    (sizes.onFrom (sizes.nth cut)).count = sizes.count - cut := by
  apply eq_of_forall_lt_iff
  intro index
  have stepsToo : 0 < (sizes.onFrom (sizes.nth cut)).step := steps
  rw [lt_count_iff stepsToo, Nat.lt_sub_iff_add_lt, lt_count_iff steps]
  simp only [onFrom, nth, Nat.mul_add, Nat.mul_comm cut]
  omega

theorem count_le_count_upTo (steps : 0 < sizes.step) {further : Nat} (later : sizes.stop ≤ further) :
    sizes.count ≤ (sizes.upTo further).count := by
  apply le_of_forall_lt
  intro index counted
  have stepsToo : 0 < (sizes.upTo further).step := steps
  have below := (lt_count_iff steps index).1 counted
  rw [lt_count_iff stepsToo]
  exact Nat.lt_of_lt_of_le below later

theorem toList_upTo_nth (steps : 0 < sizes.step) (cut : Nat) :
    (sizes.upTo (sizes.nth cut)).toList = List.range' sizes.start cut sizes.step := by
  rw [toList_eq_range', count_upTo_nth steps]
  rfl

theorem toList_cut (steps : 0 < sizes.step) {cut : Nat} (within : cut ≤ sizes.count) :
    sizes.toList = (sizes.upTo (sizes.nth cut)).toList ++ (sizes.onFrom (sizes.nth cut)).toList := by
  have total : sizes.count = cut + (sizes.count - cut) := by omega
  have joined : List.range' sizes.start cut sizes.step ++
      List.range' (sizes.start + sizes.step * cut) (sizes.count - cut) sizes.step =
        List.range' sizes.start (cut + (sizes.count - cut)) sizes.step := List.range'_append
  rw [toList_upTo_nth steps, toList_eq_range' (sizes.onFrom _), count_onFrom_nth steps, toList_eq_range',
    total, ← joined, Nat.add_sub_cancel_left, Nat.mul_comm sizes.step]
  rfl

theorem toList_upTo (steps : 0 < sizes.step) {further : Nat} (later : sizes.stop ≤ further) :
    ∃ more : Sizes, (sizes.upTo further).toList = sizes.toList ++ more.toList := by
  have stepsToo : 0 < (sizes.upTo further).step := steps
  -- Cut where the shorter range ends, the longer one begins with its sizes.
  have same : ((sizes.upTo further).upTo ((sizes.upTo further).nth sizes.count)).toList = sizes.toList := by
    rw [toList_upTo_nth stepsToo, toList_eq_range']
    rfl
  rw [toList_cut stepsToo (count_le_count_upTo steps later), same]
  exact ⟨_, rfl⟩

end

end Sizes

/-! Reports -/

namespace SweepReport

def Returns (report : SweepReport) (records : List Record) (left : Stream) : Prop :=
  report.outcome = .ok records ∧ report.stream = left

/-- A sweep that comes to what a first one and, on the stream it leaves, a second one come to. -/
structure InTwo (whole first : SweepReport) (second : Stream -> SweepReport) : Prop where
  returns : ∀ records left, whole.Returns records left ↔
    ∃ early middle late, first.Returns early middle ∧ (second middle).Returns late left ∧
      records = early ++ late
  stops : ∀ stop, whole.outcome = .error stop ↔
    first.outcome = .error stop ∨
      ∃ early middle, first.Returns early middle ∧ (second middle).outcome = .error stop

theorem inTwo {whole first : SweepReport} {second : Stream -> SweepReport}
    (goesOn : ∀ early, first.outcome = .ok early →
      whole.outcome = (second first.stream).outcome.map (early ++ ·) ∧
        whole.stream = (second first.stream).stream)
    (stops : ∀ stop, first.outcome = .error stop → whole.outcome = .error stop) :
    whole.InTwo first second := by
  cases ran : first.outcome with
  | error stop =>
      have stopped := stops stop ran
      constructor <;> simp [Returns, stopped, ran]
  | ok early =>
      obtain ⟨outcome, stream⟩ := goesOn early ran
      constructor
      next =>
        intro records left
        cases later : (second first.stream).outcome with
        | error stop => simp [Returns, outcome, ran, later, Except.map]
        | ok late =>
            simp only [Returns, outcome, stream, ran, later, Except.map, Except.ok.injEq]
            grind
      next =>
        intro stop
        cases later : (second first.stream).outcome with
        | error cause => simp [Returns, outcome, ran, later, Except.map]
        | ok late => simp [Returns, outcome, ran, later, Except.map]

theorem InTwo.early {whole first : SweepReport} {second : Stream -> SweepReport}
    (inTwo : whole.InTwo first second) {records : List Record} (returned : whole.outcome = .ok records) :
    ∃ early, first.outcome = .ok early ∧ early <+: records := by
  obtain ⟨early, _, late, ⟨first, _⟩, _, rfl⟩ := (inTwo.returns records whole.stream).1 ⟨returned, rfl⟩
  exact ⟨early, first, List.prefix_append early late⟩

end SweepReport

namespace Plan

variable {plan : Plan} {whole front back : Sizes}

/-! Shared sweeps -/

theorem sweepSizes_onSizes (plan : Plan) (sizes : Sizes) (patience : Nat) (listed : List Nat) :
    (plan.onSizes sizes).sweepSizes patience listed = plan.sweepSizes patience listed := by
  induction listed with
  | nil => rfl
  | cons size rest ih => simp only [sweepSizes, sweepSize_onSizes, ih]

theorem sweepSizes_append (plan : Plan) (patience : Nat) (listed more : List Nat) :
    plan.sweepSizes patience (listed ++ more) =
      plan.sweepSizes patience listed >>= fun _ => plan.sweepSizes patience more := by
  induction listed with
  | nil => rfl
  | cons size rest ih => simp only [List.cons_append, sweepSizes, ih, bind_assoc]

theorem sweepSizes_appends (plan : Plan) (patience : Nat) (listed : List Nat) :
    Appends (plan.sweepSizes patience listed) := by
  induction listed with
  | nil => exact .pure ()
  | cons size rest ih =>
      apply Appends.bind (Ledger.tell_appends _)
      intro _
      exact .bind (plan.sweepSize_appends patience size) fun _ => ih

theorem run_inTwo (lists : whole.toList = front.toList ++ back.toList) (patience : Nat) (stream : Stream) :
    ((plan.onSizes whole).run patience stream).InTwo ((plan.onSizes front).run patience stream)
      ((plan.onSizes back).run patience) := by
  have joined : plan.sweepSizes patience whole.toList (Ledger.ofStream stream) =
      (plan.sweepSizes patience front.toList >>= fun _ => plan.sweepSizes patience back.toList)
        (Ledger.ofStream stream) := by
    rw [lists, sweepSizes_append]
  apply SweepReport.inTwo
  next =>
    intro early returned
    simp only [run, sweepSizes_onSizes, sizes_onSizes, joined, Bind.bind, EStateM.bind] at returned ⊢
    cases ran : plan.sweepSizes patience front.toList (Ledger.ofStream stream) with
    | error stop ledger => simp [ran] at returned
    | ok _ ledger =>
        -- What the first sweep left is a fresh ledger on its stream, behind all that it holds.
        have again : ledger = (Ledger.ofStream ledger.stream).behind ledger := by
          simp [Ledger.ofStream, Ledger.behind]
        have goesOn := plan.sweepSizes_appends patience back.toList (Ledger.ofStream ledger.stream) ledger
        rw [← again] at goesOn
        obtain rfl : ledger.records.toList = early := by simpa [ran] using returned
        simp only [goesOn]
        cases plan.sweepSizes patience back.toList (Ledger.ofStream ledger.stream) with
        | ok _ last => simp [Ledger.behind, Except.map]
        | error stop last => simp [Ledger.behind, Except.map]
  next =>
    intro stop stopped
    simp only [run, sweepSizes_onSizes, sizes_onSizes, joined, Bind.bind, EStateM.bind] at stopped ⊢
    cases ran : plan.sweepSizes patience front.toList (Ledger.ofStream stream) with
    | error cause ledger => simpa [ran] using stopped
    | ok _ ledger => simp [ran] at stopped

/-! Partitioned sweeps -/

theorem parts_append (sizes more : List Nat) (stream : Stream) :
    parts (sizes ++ more) stream =
      ((parts sizes stream).1 ++ (parts more (parts sizes stream).2).1, (parts more (parts sizes stream).2).2) := by
  induction sizes generalizing stream with
  | nil => rfl
  | cons size rest ih => simp only [List.cons_append, parts_cons, ih]

theorem runPart_onSizes (plan : Plan) (sizes : Sizes) (patience : Nat) (part : Part) :
    (plan.onSizes sizes).runPart patience part = plan.runPart patience part := by
  simp only [runPart, sweepSize_onSizes]

theorem runPartitioned_inTwo (lists : whole.toList = front.toList ++ back.toList) (patience : Nat)
    (stream : Stream) :
    ((plan.onSizes whole).runPartitioned patience stream).InTwo
      ((plan.onSizes front).runPartitioned patience stream) ((plan.onSizes back).runPartitioned patience) := by
  have sameRuns : ∀ sizes : Sizes, (plan.onSizes sizes).runPart patience = plan.runPart patience :=
    fun sizes => funext (plan.runPart_onSizes sizes patience)
  -- The children of the second part are derived on the stream that the derivation of the first ones leaves.
  apply SweepReport.inTwo
  next =>
    intro early returned
    simp only [outcome_runPartitioned, stream_runPartitioned, sizes_onSizes, sameRuns, lists, parts_append,
      List.mapM_append] at returned ⊢
    cases ran : (parts front.toList stream).1.mapM (plan.runPart patience) with
    | error stop => simp [ran, Except.map] at returned
    | ok batches =>
        obtain rfl : batches.flatten = early := by simpa [ran, Except.map] using returned
        refine ⟨?_, trivial⟩
        cases (parts back.toList (parts front.toList stream).2).1.mapM (plan.runPart patience) with
        | ok others => simp [Except.map, Bind.bind, Except.bind, Pure.pure, Except.pure]
        | error stop => rfl
  next =>
    intro stop stopped
    simp only [outcome_runPartitioned, sizes_onSizes, sameRuns, lists, parts_append,
      List.mapM_append] at stopped ⊢
    cases ran : (parts front.toList stream).1.mapM (plan.runPart patience) with
    | error cause =>
        obtain rfl : cause = stop := by simpa [ran, Except.map] using stopped
        rfl
    | ok batches => simp [ran, Except.map] at stopped

/-! Plans on some of their sizes -/

theorem reserve_eq_ok_iff {count width : Nat} :
    reserve count width = .ok () ↔ count * width ≤ largestBlock := by
  by_cases room : count * width ≤ largestBlock <;> simp [reserve, room]

theorem checkRoom_eq_ok_iff (plan : Plan) (shared : Bool) :
    plan.checkRoom shared = .ok () ↔
      2 * plan.repetitions * (if shared then plan.sizes.count else 1) * recordWidth ≤ largestBlock ∧
        (plan.parametersFor plan.sizes.start false).checkRoom = .ok () := by
  rw [← reserve_eq_ok_iff, checkRoom]
  cases reserve (2 * plan.repetitions * (if shared then plan.sizes.count else 1)) recordWidth with
  | error fault => simp [Bind.bind, Except.bind]
  | ok _ => simp [Bind.bind, Except.bind]

theorem checkRoom_trial (accepted : plan.validate = .ok ()) {size : Nat} (among : size ∈ plan.sizes.toList)
    (seeded : Bool) :
    (plan.parametersFor size seeded).checkRoom = reserve (plan.peers + 1) Parameters.contactWidth := by
  simp only [Parameters.checkRoom, parametersFor_valid accepted among seeded]
  rfl

theorem checkRoom_parametersFor (accepted : plan.validate = .ok ()) :
    (plan.parametersFor plan.sizes.start false).checkRoom = reserve (plan.peers + 1) Parameters.contactWidth := by
  obtain ⟨steps, _, someSize, _⟩ := plan.validate_eq_ok_iff.1 accepted
  have counted := Sizes.count_pos (Nat.pos_of_ne_zero steps) someSize
  exact checkRoom_trial accepted (Sizes.start_mem_toList counted) false

/-- Where a plan has room, each of its trials has: none of them need ask for it again. -/
theorem simulateInRoom_trial (accepted : plan.validate = .ok ()) {shared : Bool}
    (room : plan.checkRoom shared = .ok ()) {size : Nat} (among : size ∈ plan.sizes.toList) (seeded : Bool)
    (patience : Nat) :
    simulateInRoom patience (plan.parametersFor size seeded) = simulate patience (plan.parametersFor size seeded) := by
  have first := ((checkRoom_eq_ok_iff plan shared).1 room).2
  rw [checkRoom_parametersFor accepted, ← checkRoom_trial accepted among seeded] at first
  funext stream
  rw [simulateInRoom, first]

theorem checkRoom_onSizes {sizes : Sizes} (accepted : plan.validate = .ok ())
    (acceptedToo : (plan.onSizes sizes).validate = .ok ()) (fewer : sizes.count ≤ plan.sizes.count)
    {shared : Bool} (room : plan.checkRoom shared = .ok ()) : (plan.onSizes sizes).checkRoom shared = .ok () := by
  rw [checkRoom_eq_ok_iff, checkRoom_parametersFor accepted] at room
  rw [checkRoom_eq_ok_iff, checkRoom_parametersFor acceptedToo]
  refine ⟨Nat.le_trans ?_ room.1, room.2⟩
  apply Nat.mul_le_mul_right
  apply Nat.mul_le_mul_left
  cases shared with
  | true => exact fewer
  | false => exact Nat.le_refl 1

/-- At any of its sizes but the first a plan can be cut into two that are accepted, and that have room where it has.
Its sweep comes to what the first part and, on the stream that this leaves, the second part come to. With a later
stop a sweep still begins with the same records. -/
theorem sweep_split {plan : Plan} (accepted : plan.validate = .ok ()) {cut : Nat} (positive : 0 < cut)
    (within : cut < plan.sizes.grid.length) (patience : Nat) (stream : Stream) :
    let front := plan.onSizes { plan.sizes with stop := plan.sizes.start + cut * plan.sizes.step }
    let back := plan.onSizes { plan.sizes with start := plan.sizes.start + cut * plan.sizes.step }
    front.validate = .ok () ∧ back.validate = .ok () ∧
      (∀ shared, plan.checkRoom shared = .ok () →
        front.checkRoom shared = .ok () ∧ back.checkRoom shared = .ok ()) ∧
      (plan.run patience stream).InTwo (front.run patience stream) (back.run patience) ∧
      (plan.runPartitioned patience stream).InTwo (front.runPartitioned patience stream)
        (back.runPartitioned patience) ∧
      ∀ further, plan.sizes.stop ≤ further →
        let longer := plan.onSizes { plan.sizes with stop := further }
        (∀ records, (longer.run patience stream).outcome = .ok records →
          ∃ early, (plan.run patience stream).outcome = .ok early ∧ early <+: records) ∧
        ∀ records, (longer.runPartitioned patience stream).outcome = .ok records →
          ∃ early, (plan.runPartitioned patience stream).outcome = .ok early ∧ early <+: records := by
  have steps := step_pos accepted
  have counted : cut < plan.sizes.count := by
    rwa [← Sizes.toList_eq_grid steps, Sizes.length_toList] at within
  have lists := Sizes.toList_cut steps (Nat.le_of_lt counted)
  have below := (Sizes.lt_count_iff steps cut).1 counted
  have moved : 0 < cut * plan.sizes.step := Nat.mul_pos positive steps
  rw [Nat.mul_comm plan.sizes.step] at below
  have validFront : (plan.onSizes (plan.sizes.upTo (plan.sizes.nth cut))).validate = .ok () := by
    apply onSizes_valid accepted
    · exact steps
    · exact Nat.lt_add_of_pos_right moved
    · rw [lists]
      exact List.subset_append_left _ _
  have validBack : (plan.onSizes (plan.sizes.onFrom (plan.sizes.nth cut))).validate = .ok () := by
    apply onSizes_valid accepted
    · exact steps
    · exact below
    · rw [lists]
      exact List.subset_append_right _ _
  refine ⟨validFront, validBack, fun shared room => ?_, run_inTwo lists patience stream,
    runPartitioned_inTwo lists patience stream, fun further later => ?_⟩
  next =>
    constructor
    · apply checkRoom_onSizes accepted validFront _ room
      rw [Sizes.count_upTo_nth steps]
      exact Nat.le_of_lt counted
    · apply checkRoom_onSizes accepted validBack _ room
      rw [Sizes.count_onFrom_nth steps]
      exact Nat.sub_le _ _
  next =>
    obtain ⟨more, longer⟩ := Sizes.toList_upTo steps later
    exact ⟨fun records returned => (run_inTwo longer patience stream).early returned,
      fun records returned => (runPartitioned_inTwo longer patience stream).early returned⟩

/-- The short plan is cut into its two sizes. Under a cap of two its second part stops, on the stream that the first
one leaves, as the whole does. -/
theorem shortPlan_split :
    (shortPlan 9).validate = .ok () ∧ 1 < (shortPlan 9).sizes.grid.length ∧
      ((shortPlan 9).run 20 (.ofSeed 2)).outcome = .ok shortRecords ∧
      (∃ early middle late,
        (((shortPlan 9).onSizes { start := 1, stop := 3, step := 2 }).run 20 (.ofSeed 2)).Returns early middle ∧
          (((shortPlan 9).onSizes { start := 3, stop := 4, step := 2 }).run 20 middle).Returns late
            ((shortPlan 9).run 20 (.ofSeed 2)).stream ∧
          shortRecords = early ++ late) ∧
      (shortPlan 2).validate = .ok () ∧
      ∃ stop early middle,
        ((shortPlan 2).runPartitioned 20 (.ofSeed 4)).outcome = .error stop ∧
          (((shortPlan 2).onSizes { start := 1, stop := 3, step := 2 }).runPartitioned 20 (.ofSeed 4)).Returns
            early middle ∧
          (((shortPlan 2).onSizes { start := 3, stop := 4, step := 2 }).runPartitioned 20 middle).outcome =
            .error stop := by
  have accepted : (shortPlan 9).validate = .ok () := by decide
  have several : 1 < (shortPlan 9).sizes.grid.length := by decide
  have returned : ((shortPlan 9).run 20 (.ofSeed 2)).outcome = .ok shortRecords := by decide +kernel
  have acceptedToo : (shortPlan 2).validate = .ok () := by decide
  have severalToo : 1 < (shortPlan 2).sizes.grid.length := by decide
  have stopped : ((shortPlan 2).runPartitioned 20 (.ofSeed 4)).outcome =
      .error (.failed (.trial 3 (.capped { size := 3, rounds := 2, infected := 2 }))) := by decide +kernel
  have first : (((shortPlan 2).onSizes { start := 1, stop := 3, step := 2 }).runPartitioned 20
      (.ofSeed 4)).outcome = .ok (shortRecords.take 2) := by decide +kernel
  obtain ⟨_, _, _, shared, _⟩ := sweep_split accepted Nat.one_pos several 20 (.ofSeed 2)
  obtain ⟨_, _, _, _, partitioned, _⟩ := sweep_split acceptedToo Nat.one_pos severalToo 20 (.ofSeed 4)
  refine ⟨accepted, several, returned, (shared.returns _ _).1 ⟨returned, rfl⟩, acceptedToo, ?_⟩
  rcases (partitioned.stops _).1 stopped with early | ⟨early, middle, firstReturned, secondStopped⟩
  · cases first.symm.trans early
  · exact ⟨_, early, middle, stopped, firstReturned, secondStopped⟩

end Plan

end Rumour

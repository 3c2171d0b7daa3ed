import Rumour.Proofs.Sizes
import Rumour.Sweep.Run

set_option autoImplicit false

/-!
Trials made over again. All trials of a plan can be made one after the other on one stream, up to the first that
does not come to its end. A shared sweep makes these trials; what it tells is put together of the sizes that were
begun and, for each of them, its completed trials.
-/

namespace Rumour

open Rumour.Random

structure Trial where
  size : Nat
  repetition : Nat
  seeded : Bool
  deriving DecidableEq, Repr

structure Tried where
  trial : Trial
  rounds : Nat
  deriving DecidableEq, Repr

namespace Tried

def record (tried : Tried) : Record :=
  { size := tried.trial.size, seeded := tried.trial.seeded, rounds := tried.rounds }

def notices (tried : Tried) : List Notice :=
  [.log (.trialFinished tried.trial.repetition tried.record), .event (.trialEnded tried.record)]

end Tried

/-- The completed trials of a row, the one that stopped it, and the stream that is left. -/
structure Rerun where
  completed : List Tried
  stopped : Option (Trial × SweepStop)
  stream : Stream
  deriving DecidableEq, Repr

def Rerun.followedBy (head tail : Rerun) : Rerun :=
  { tail with completed := head.completed ++ tail.completed }

namespace Plan

def trialsAt (plan : Plan) (size : Nat) : List Trial :=
  (List.range plan.repetitions).flatMap fun repetition =>
    [{ size, repetition, seeded := false }, { size, repetition, seeded := true }]

def trialsOf (plan : Plan) (sizes : List Nat) : List Trial :=
  sizes.flatMap plan.trialsAt

def rerun (plan : Plan) (patience : Nat) : List Trial -> Stream -> Rerun
  | [], stream => { completed := [], stopped := none, stream }
  | trial :: rest, stream =>
      match simulate patience (plan.parametersFor trial.size trial.seeded) stream with
      | .ok (.ok rounds) stream =>
          let later := plan.rerun patience rest stream
          { later with completed := { trial, rounds } :: later.completed }
      | .ok (.error fault) stream =>
          { completed := [], stopped := some (trial, .failed (.trial trial.size fault)), stream }
      | .error halt stream => { completed := [], stopped := some (trial, .halted halt), stream }

section

variable {plan : Plan} {patience : Nat} {trials : List Trial} {stream : Stream}

theorem rerun_append_stopped {stop : Trial × SweepStop} (more : List Trial)
    (stopped : (plan.rerun patience trials stream).stopped = some stop) :
    plan.rerun patience (trials ++ more) stream = plan.rerun patience trials stream := by
  induction trials generalizing stream with
  | nil => cases stopped
  | cons trial rest ih =>
      simp only [List.cons_append, rerun] at stopped ⊢
      split at stopped
      next => simp only [ih stopped]
      next => rfl
      next => rfl

theorem rerun_append (more : List Trial) (ended : (plan.rerun patience trials stream).stopped = none) :
    plan.rerun patience (trials ++ more) stream =
      (plan.rerun patience trials stream).followedBy
        (plan.rerun patience more (plan.rerun patience trials stream).stream) := by
  induction trials generalizing stream with
  | nil => rfl
  | cons trial rest ih =>
      simp only [List.cons_append, rerun] at ended ⊢
      split at ended
      next => simp only [ih ended, Rerun.followedBy, List.cons_append]
      next => cases ended
      next => cases ended

theorem rerun_complete (ended : (plan.rerun patience trials stream).stopped = none) :
    (plan.rerun patience trials stream).completed.map Tried.trial = trials := by
  induction trials generalizing stream with
  | nil => rfl
  | cons trial rest ih =>
      simp only [rerun] at ended ⊢
      split at ended
      next => simp only [List.map_cons, ih ended]
      next => cases ended
      next => cases ended

theorem rerun_cut {failing : Trial} {stop : SweepStop}
    (stopped : (plan.rerun patience trials stream).stopped = some (failing, stop)) :
    ∃ rest, trials = (plan.rerun patience trials stream).completed.map Tried.trial ++ failing :: rest := by
  induction trials generalizing stream with
  | nil => cases stopped
  | cons trial rest ih =>
      simp only [rerun] at stopped ⊢
      split at stopped
      next =>
        obtain ⟨others, shape⟩ := ih stopped
        exact ⟨others, by simpa using shape⟩
      next =>
        cases stopped
        exact ⟨rest, rfl⟩
      next =>
        cases stopped
        exact ⟨rest, rfl⟩

theorem completed_prefix : (plan.rerun patience trials stream).completed.map Tried.trial <+: trials := by
  cases stopped : (plan.rerun patience trials stream).stopped with
  | none => exact ⟨[], (List.append_nil _).trans (rerun_complete stopped)⟩
  | some stop =>
      obtain ⟨rest, shape⟩ := rerun_cut stopped
      exact ⟨stop.1 :: rest, shape.symm⟩

theorem mem_of_completed {tried : Tried}
    (member : tried ∈ (plan.rerun patience trials stream).completed) : tried.trial ∈ trials :=
  completed_prefix.subset (List.mem_map_of_mem member)

theorem mem_of_stopped {failing : Trial} {stop : SweepStop}
    (stopped : (plan.rerun patience trials stream).stopped = some (failing, stop)) : failing ∈ trials := by
  obtain ⟨rest, shape⟩ := rerun_cut stopped
  rw [shape]
  simp

theorem size_of_stopped {failing : Trial} {size : Nat} {cause : RunFault}
    (stopped : (plan.rerun patience trials stream).stopped = some (failing, .failed (.trial size cause))) :
    failing.size = size := by
  induction trials generalizing stream with
  | nil => cases stopped
  | cons trial rest ih =>
      simp only [rerun] at stopped
      split at stopped
      next => exact ih stopped
      next =>
        cases stopped
        rfl
      next => cases stopped

end

/-! Sizes of trials -/

theorem size_of_mem_trialsAt {plan : Plan} {size : Nat} {trial : Trial}
    (member : trial ∈ plan.trialsAt size) : trial.size = size := by
  simp only [trialsAt, List.mem_flatMap, List.mem_cons, List.not_mem_nil, or_false] at member
  obtain ⟨repetition, _, rfl | rfl⟩ := member <;> rfl

theorem size_of_mem_trialsOf {plan : Plan} {sizes : List Nat} {trial : Trial}
    (member : trial ∈ plan.trialsOf sizes) : trial.size ∈ sizes := by
  obtain ⟨size, listed, tried⟩ := List.mem_flatMap.1 member
  rwa [size_of_mem_trialsAt tried]

/-! What a ledger takes in -/

end Plan

namespace Rerun

def leave (rerun : Rerun) (notices : List Notice) (ledger : Ledger) : Ledger :=
  { stream := rerun.stream
    notices := ledger.notices ++ notices.toArray
    records := ledger.records ++ (rerun.completed.map Tried.record).toArray }

def settle (rerun : Rerun) (notices : List Notice) (ledger : Ledger) :
    EStateM.Result SweepStop Ledger Unit :=
  match rerun.stopped with
  | none => .ok () (rerun.leave notices ledger)
  | some (_, stop) => .error stop (rerun.leave notices ledger)

theorem settle_followedBy (head tail : Rerun) (early late : List Notice) (ledger : Ledger) :
    tail.settle late (head.leave early ledger) = (head.followedBy tail).settle (early ++ late) ledger := by
  simp only [settle, followedBy]
  cases tail.stopped <;> simp [leave]

end Rerun

namespace Plan

def tryAll (plan : Plan) (patience : Nat) : List Trial -> EStateM SweepStop Ledger Unit
  | [] => pure ()
  | trial :: rest => do
      plan.trial patience trial.size trial.repetition trial.seeded
      plan.tryAll patience rest

theorem tryAll_eq (plan : Plan) (patience : Nat) (trials : List Trial) (ledger : Ledger) :
    plan.tryAll patience trials ledger =
      (plan.rerun patience trials ledger.stream).settle
        ((plan.rerun patience trials ledger.stream).completed.flatMap Tried.notices) ledger := by
  -- On the trials: the rest is tried on the ledger that the first one leaves, which holds its stream.
  induction trials generalizing ledger with
  | nil => simp [tryAll, rerun, Rerun.settle, Rerun.leave, pure, EStateM.pure]
  | cons trial rest ih =>
      simp only [tryAll, Plan.trial, rerun, Bind.bind, EStateM.bind, Ledger.simulate]
      cases ran : simulate patience (plan.parametersFor trial.size trial.seeded) ledger.stream with
      | error halt left => simp [Rerun.settle, Rerun.leave]
      | ok result left =>
          cases result with
          | error fault => simp [Rerun.settle, Rerun.leave, parametersFor]
          | ok rounds =>
              simp only [Ledger.enter, ih]
              simp [Rerun.settle, Rerun.leave, Tried.notices, Tried.record]

theorem repetitionsFrom_eq_tryAll (plan : Plan) (patience size count repetition : Nat) :
    plan.repetitionsFrom patience size count repetition =
      plan.tryAll patience ((List.range' repetition count).flatMap fun repetition =>
        [{ size, repetition, seeded := false }, { size, repetition, seeded := true }]) := by
  induction count generalizing repetition with
  | zero => rfl
  | succ count ih => simp [repetitionsFrom, ih, List.range'_succ, tryAll]

theorem sweepSize_eq (plan : Plan) (patience size : Nat) (ledger : Ledger) :
    plan.sweepSize patience size ledger =
      (plan.rerun patience (plan.trialsAt size) ledger.stream).settle
        (.log (.sizeStarted size) ::
          (plan.rerun patience (plan.trialsAt size) ledger.stream).completed.flatMap Tried.notices)
        ledger := by
  have trials : plan.repetitionsFrom patience size plan.repetitions 0 =
      plan.tryAll patience (plan.trialsAt size) := by
    rw [repetitionsFrom_eq_tryAll, ← List.range_eq_range']
    rfl
  simp only [sweepSize, trials, Bind.bind, EStateM.bind, Ledger.tell, tryAll_eq]
  simp [Rerun.settle, Rerun.leave]

/-! What a sweep tells -/

def sizeNotices (size : Nat) (completed : List Tried) : List Notice :=
  .event (.sizeStarted size) :: .log (.sizeStarted size) ::
    (completed.filter fun tried => tried.trial.size = size).flatMap Tried.notices

def told (sizes : List Nat) (completed : List Tried) : List Notice :=
  sizes.flatMap fun size => sizeNotices size completed

/-- The sizes that are begun when a trial stops the sweep, or all of them. -/
def begun (sizes : List Nat) : Option (Trial × SweepStop) -> List Nat
  | none => sizes
  | some (failing, _) => sizes.filter fun size => size ≤ failing.size

section

variable {sizes : List Nat} {size : Nat} {completed more : List Tried}

theorem sizeNotices_all (same : ∀ tried ∈ completed, tried.trial.size = size) :
    sizeNotices size completed =
      .event (.sizeStarted size) :: .log (.sizeStarted size) :: completed.flatMap Tried.notices := by
  rw [sizeNotices, List.filter_eq_self.2 (by simpa using same)]

theorem sizeNotices_append_other (others : ∀ tried ∈ more, tried.trial.size ≠ size) :
    sizeNotices size (completed ++ more) = sizeNotices size completed := by
  have noneKept : more.filter (fun tried => tried.trial.size = size) = [] := by
    simpa [List.filter_eq_nil_iff] using others
  rw [sizeNotices, List.filter_append, noneKept, List.append_nil]
  rfl

theorem told_append_other (others : ∀ tried ∈ completed, tried.trial.size ∉ sizes) :
    told sizes (completed ++ more) = told sizes more := by
  apply List.flatMap_congr
  intro size listed
  have noneKept : completed.filter (fun tried => tried.trial.size = size) = [] := by
    simp only [List.filter_eq_nil_iff, decide_eq_true_eq]
    intro tried member same
    exact others tried member (same ▸ listed)
  rw [sizeNotices, List.filter_append, noneKept, List.nil_append]
  rfl

end

theorem begun_cons {size : Nat} {rest : List Nat} (later : ∀ other ∈ rest, size < other)
    {stopped : Option (Trial × SweepStop)}
    (failing : ∀ trial stop, stopped = some (trial, stop) → trial.size ∈ rest) :
    begun (size :: rest) stopped = size :: begun rest stopped := by
  cases stopped with
  | none => rfl
  | some pair =>
      obtain ⟨trial, stop⟩ := pair
      have beyond := later _ (failing trial stop rfl)
      simp [begun, Nat.le_of_lt beyond]

theorem begun_head {size : Nat} {rest : List Nat} (later : ∀ other ∈ rest, size < other) {failing : Trial}
    (same : failing.size = size) (stop : SweepStop) : begun (size :: rest) (some (failing, stop)) = [size] := by
  have noneLater : rest.filter (fun other => other ≤ size) = [] := by
    simpa [List.filter_eq_nil_iff] using later
  simp [begun, same, noneLater]

theorem begun_mem {sizes : List Nat} {stopped : Option (Trial × SweepStop)} {size : Nat}
    (member : size ∈ begun sizes stopped) : size ∈ sizes := by
  cases stopped with
  | none => exact member
  | some pair => exact List.mem_of_mem_filter member

theorem told_cons {size : Nat} {rest : List Nat} {first more : List Tried}
    (elsewhere : ∀ tried ∈ first, tried.trial.size ∉ rest)
    (others : ∀ tried ∈ more, tried.trial.size ≠ size) :
    told (size :: rest) (first ++ more) = sizeNotices size first ++ told rest more := by
  rw [told, List.flatMap_cons, sizeNotices_append_other others]
  exact congrArg _ (told_append_other elsewhere)

theorem sweepSizes_eq (plan : Plan) (patience : Nat) {sizes : List Nat}
    (ascending : sizes.Pairwise (· < ·)) (ledger : Ledger) :
    plan.sweepSizes patience sizes ledger =
      (plan.rerun patience (plan.trialsOf sizes) ledger.stream).settle
        (told (begun sizes (plan.rerun patience (plan.trialsOf sizes) ledger.stream).stopped)
          (plan.rerun patience (plan.trialsOf sizes) ledger.stream).completed) ledger := by
  -- On the sizes: the trials of the first size come before those of the others, in the rerun as in the sweep.
  induction sizes generalizing ledger with
  | nil => simp [sweepSizes, trialsOf, rerun, begun, told, Rerun.settle, Rerun.leave, pure, EStateM.pure]
  | cons size rest ih =>
      obtain ⟨later, restAscending⟩ := List.pairwise_cons.1 ascending
      have trials : plan.trialsOf (size :: rest) = plan.trialsAt size ++ plan.trialsOf rest := rfl
      obtain ⟨head, headIs⟩ : ∃ head, plan.rerun patience (plan.trialsAt size) ledger.stream = head :=
        ⟨_, rfl⟩
      have same : ∀ tried ∈ head.completed, tried.trial.size = size := by
        rw [← headIs]
        exact fun tried member => size_of_mem_trialsAt (mem_of_completed member)
      cases stopped : head.stopped with
      | some pair =>
          -- A trial of the first size stops the sweep, and no other size is begun.
          obtain ⟨failing, stop⟩ := pair
          have onlyOne := begun_head later (size_of_mem_trialsAt (mem_of_stopped (headIs ▸ stopped))) stop
          rw [trials, rerun_append_stopped _ (headIs ▸ stopped), headIs, stopped, onlyOne]
          simp [sweepSizes, Bind.bind, EStateM.bind, Ledger.tell, sweepSize_eq, headIs, Rerun.settle,
            Rerun.leave, stopped, told, sizeNotices_all same]
      | none =>
          have started : plan.sweepSizes patience (size :: rest) ledger =
              plan.sweepSizes patience rest (head.leave (sizeNotices size head.completed) ledger) := by
            simp [sweepSizes, Bind.bind, EStateM.bind, Ledger.tell, sweepSize_eq, headIs, Rerun.settle,
              Rerun.leave, stopped, sizeNotices_all same]
          obtain ⟨tail, tailIs⟩ :
              ∃ tail, plan.rerun patience (plan.trialsOf rest) head.stream = tail := ⟨_, rfl⟩
          have restSizes : ∀ tried ∈ tail.completed, tried.trial.size ∈ rest := by
            rw [← tailIs]
            exact fun tried member => size_of_mem_trialsOf (mem_of_completed member)
          have failing : ∀ trial stop, tail.stopped = some (trial, stop) → trial.size ∈ rest := by
            rw [← tailIs]
            exact fun trial stop halted => size_of_mem_trialsOf (mem_of_stopped halted)
          -- As the sizes ascend, the trials of the first size and those of the rest have no size in common.
          have others : ∀ tried ∈ tail.completed, tried.trial.size ≠ size :=
            fun tried member => Nat.ne_of_gt (later _ (restSizes tried member))
          have elsewhere : ∀ tried ∈ head.completed, tried.trial.size ∉ begun rest tail.stopped := by
            intro tried member listed
            rw [same tried member] at listed
            exact Nat.lt_irrefl size (later size (begun_mem listed))
          have ahead := ih restAscending (head.leave (sizeNotices size head.completed) ledger)
          have goesOn : (head.leave (sizeNotices size head.completed) ledger).stream = head.stream := rfl
          rw [goesOn, tailIs] at ahead
          rw [started, ahead, Rerun.settle_followedBy, trials, rerun_append _ (headIs ▸ stopped), headIs,
            tailIs]
          simp only [Rerun.followedBy, begun_cons later failing, told_cons elsewhere others]

/-! Whole sweeps -/

def reportOf (rerun : Rerun) (notices : List Notice) : SweepReport :=
  match rerun.stopped with
  | none =>
      { notices := notices ++ closing rerun.completed.length
        outcome := .ok (rerun.completed.map Tried.record)
        stream := rerun.stream }
  | some (_, stop) => { notices, outcome := .error stop, stream := rerun.stream }

/-- A shared sweep makes the trials of all sizes on one stream. -/
theorem run_eq_rerun {plan : Plan} (steps : 0 < plan.sizes.step) (patience : Nat) (stream : Stream) :
    plan.run patience stream =
      reportOf (plan.rerun patience (plan.trialsOf plan.sizes.grid) stream)
        (told (begun plan.sizes.grid (plan.rerun patience (plan.trialsOf plan.sizes.grid) stream).stopped)
          (plan.rerun patience (plan.trialsOf plan.sizes.grid) stream).completed) := by
  simp only [run, Sizes.toList_eq_grid steps, sweepSizes_eq plan patience plan.sizes.grid_ascending,
    Ledger.ofStream]
  generalize plan.rerun patience (plan.trialsOf plan.sizes.grid) stream = rerun
  simp only [Rerun.settle, reportOf]
  cases rerun.stopped <;> simp [Rerun.leave]

theorem runPart_eq_rerun (plan : Plan) (patience : Nat) (part : Part) :
    plan.runPart patience part =
      (reportOf (plan.rerun patience (plan.trialsAt part.size) part.stream) []).outcome := by
  simp only [runPart, sweepSize_eq, Ledger.ofStream]
  generalize plan.rerun patience (plan.trialsAt part.size) part.stream = rerun
  simp only [Rerun.settle, reportOf]
  cases rerun.stopped <;> simp [Rerun.leave]

end Plan

end Rumour

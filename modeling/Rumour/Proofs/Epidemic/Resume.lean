import Rumour.Proofs.Epidemic.Cap

set_option autoImplicit false

/-!
Runs in pieces. Between two passes a run holds nothing that its epidemic and its stream do not hold, so passes after
which it would not stop can be made ahead of it. Behind them the run is the same, and its observer is told the rest.
A run that falls short has made such passes, as far as a higher cap can see.
-/

namespace Rumour

open Rumour.Random

/-- The course whose observer was told something else before. -/
def Course.after (course : Course) (told : List RoundEvent) : Course :=
  { course with events := told ++ course.events }

@[simp] theorem Course.after_nil (course : Course) : course.after [] = course := rfl

@[simp] theorem Course.after_after (course : Course) (told more : List RoundEvent) :
    (course.after more).after told = course.after (told ++ more) := by
  simp [after]

namespace Epidemic

theorem settle_append (told events : List RoundEvent) (last : Epidemic × Stream) :
    settle (told ++ events) last = (settle events last).after told := by
  simp only [settle]
  split <;> simp [Course.after]

theorem runFrom_told (patience passes : Nat) (events : List RoundEvent) (epidemic : Epidemic)
    (stream : Stream) :
    runFrom patience passes events epidemic stream =
      (runFrom patience passes [] epidemic stream).after events.reverse := by
  induction passes generalizing events epidemic stream with
  | zero => simp [runFrom, runOver, Course.after]
  | succ passes ih =>
      cases ran : pass patience (epidemic, stream) with
      | error halt left => simp [runFrom, runOver, ran, Course.after]
      | ok _ next =>
          by_cases stops : next.1.Stops
          next =>
            rw [runFrom_stops ran stops, runFrom_stops ran stops, settle_append]
            rfl
          next =>
            rw [runFrom_goesOn ran stops, runFrom_goesOn ran stops, ih (roundEnd next :: events),
              ih [roundEnd next], Course.after_after, List.reverse_cons, List.reverse_singleton]

/-! Runs that return -/

/-- With patience enough, a run of the epidemic comes to an end, and in this way. -/
structure Returns (epidemic : Epidemic) (stream : Stream) (course : Course) : Prop where
  ends : ∀ halt, course.ending ≠ .halted halt
  lasts : ∃ enough, ∀ patience, enough ≤ patience → epidemic.run patience stream = course

theorem returns_of_run {epidemic : Epidemic} {stream : Stream} {patience : Nat} {course : Course}
    (ran : epidemic.run patience stream = course) (ends : ∀ halt, course.ending ≠ .halted halt) :
    epidemic.Returns stream course := by
  subst ran
  refine ⟨ends, patience, fun further more => ?_⟩
  cases settled : epidemic.converged with
  | true => rw [run_of_converged settled, run_of_converged settled]
  | false =>
      rw [run_eq_runFrom settled] at ends ⊢
      rw [run_eq_runFrom settled]
      exact runFrom_lasting ends more more

/-! Passes between which a run goes on -/

/-- Passes after none of which a run would stop, with what its observer would be told of them. -/
inductive GoesOn (patience : Nat) : Epidemic × Stream -> List RoundEvent -> Epidemic × Stream -> Prop where
  | refl (state : Epidemic × Stream) : GoesOn patience state [] state
  | pass {state next last : Epidemic × Stream} {told : List RoundEvent}
      (ran : Epidemic.pass patience state = .ok () next) (goesOn : ¬ next.1.Stops)
      (later : GoesOn patience next told last) : GoesOn patience state (roundEnd next :: told) last

namespace GoesOn

variable {patience : Nat} {state last : Epidemic × Stream} {told : List RoundEvent}

theorem lasting (ahead : GoesOn patience state told last) {enough : Nat} (patient : patience ≤ enough) :
    GoesOn enough state told last := by
  induction ahead with
  | refl state => exact .refl state
  | pass ran goesOn _ ih => exact .pass (pass_lasting patience enough patient _ _ _ ran) goesOn ih

theorem converged (ahead : GoesOn patience state told last) : last.1.converged = state.1.converged := by
  induction ahead with
  | refl => rfl
  | pass ran _ _ ih => rw [ih, pass_rest ran]

theorem runFrom_eq (ahead : GoesOn patience state told last) (passes : Nat) :
    runFrom patience (told.length + passes) [] state.1 state.2 =
      (runFrom patience passes [] last.1 last.2).after told := by
  induction ahead with
  | refl => simp
  | @pass state next last told ran goesOn later ih =>
      have count : (roundEnd next :: told).length + passes = told.length + passes + 1 := by
        simp only [List.length_cons]
        omega
      rw [count, runFrom_goesOn ran goesOn, runFrom_told, ih, Course.after_after]
      rfl

theorem run_eq (ahead : GoesOn patience state told last) (unsettled : state.1.converged = false)
    {enough : Nat} (more : patience + told.length ≤ enough) :
    state.1.run enough state.2 =
      (runFrom enough (enough - told.length) [] last.1 last.2).after told := by
  have followed := (ahead.lasting (by omega : patience ≤ enough)).runFrom_eq (enough - told.length)
  rwa [Nat.add_sub_of_le (by omega : told.length ≤ enough), ← run_eq_runFrom unsettled] at followed

theorem returns_iff (ahead : GoesOn patience state told last) (unsettled : state.1.converged = false)
    (course : Course) :
    state.1.Returns state.2 course ↔
      ∃ second, last.1.Returns last.2 second ∧ course = second.after told := by
  have unsettledToo := ahead.converged.trans unsettled
  constructor
  next =>
    rintro ⟨ends, enough, found⟩
    have whole := found (max enough (patience + told.length)) (by omega)
    rw [ahead.run_eq unsettled (by omega)] at whole
    subst whole
    refine ⟨runFrom _ _ [] last.1 last.2, ⟨ends, max enough (patience + told.length), ?_⟩, rfl⟩
    intro further more
    rw [run_eq_runFrom unsettledToo]
    exact runFrom_lasting ends more (by omega)
  next =>
    rintro ⟨second, ⟨ends, enough, found⟩, rfl⟩
    have rest := found enough (Nat.le_refl enough)
    rw [run_eq_runFrom unsettledToo] at rest
    refine ⟨ends, max patience enough + told.length, fun further more => ?_⟩
    subst rest
    rw [ahead.run_eq unsettled (by omega), runFrom_lasting ends (by omega) (by omega)]

end GoesOn

/-! Where runs are cut -/

/-- No cap, or one above a counter. -/
def Above (later : Option Nat) (round : Nat) : Prop :=
  ∀ further, later = some further → round < further

theorem Above.mono {later : Option Nat} {round less : Nat} (above : Above later round) (within : less ≤ round) :
    Above later less :=
  fun further same => Nat.lt_of_le_of_lt within (above further same)

@[simp] theorem roundEnd_withCap (epidemic : Epidemic) (stream : Stream) (cap : Option Nat) :
    roundEnd (epidemic.withCap cap, stream) = roundEnd (epidemic, stream) := rfl

theorem not_stops_withCap {epidemic : Epidemic} {later : Option Nat}
    (healthy : ¬ epidemic.population.allInfected = true) (above : Above later epidemic.round) :
    ¬ (epidemic.withCap later).Stops := by
  cases later with
  | none => simp [stops_iff, withCap, Parameters.withCap, healthy]
  | some further =>
      rw [stops_withCap_iff healthy]
      exact Nat.not_le_of_lt (above further rfl)

theorem goesOn_of_capped {patience passes cap : Nat} {later : Option Nat} {shortfall : Shortfall}
    {epidemic : Epidemic} {stream : Stream} (limit : epidemic.parameters.maxRounds = some cap)
    (above : Above later (max cap (epidemic.round + 1)))
    (short : (runFrom patience passes [] epidemic stream).ending = .capped shortfall) :
    GoesOn patience (epidemic.withCap later, stream) (runFrom patience passes [] epidemic stream).events
      ((runFrom patience passes [] epidemic stream).epidemic.withCap later,
        (runFrom patience passes [] epidemic stream).stream) := by
  induction passes generalizing epidemic stream with
  | zero => cases short
  | succ passes ih =>
      cases ran : pass patience (epidemic, stream) with
      | error halt left => simp [runFrom, runOver, ran] at short
      | ok _ next =>
          have round : next.1.round = epidemic.round + 1 := by rw [pass_rest ran]
          have kept : next.1.parameters.maxRounds = some cap := by rw [pass_rest ran, limit]
          have ranToo := pass_withCap ran later
          have beyond : Above later next.1.round := above.mono (by omega)
          by_cases stops : next.1.Stops
          next =>
            rw [runFrom_stops ran stops] at short ⊢
            by_cases full : next.1.population.allInfected = true
            next => simp [settle, full] at short
            next =>
              have single := GoesOn.pass ranToo (not_stops_withCap full beyond) (.refl _)
              simpa [settle, full] using single
          next =>
            rw [runFrom_goesOn ran stops, runFrom_told] at short ⊢
            obtain ⟨healthy, below⟩ := not_or.1 ((stops_iff _).not.1 stops)
            have within : next.1.round < cap := Nat.lt_of_not_le fun reached => below ⟨cap, kept, reached⟩
            -- What is behind the next pass is cut just as well, since the first cap has not been reached by it.
            have later := ih kept (above.mono (by omega)) short
            have ahead := GoesOn.pass ranToo (not_stops_withCap healthy beyond) later
            exact ahead

section

variable {parameters : Parameters} {patience count : Nat} {state last : Epidemic × Stream}

theorem passes_behind (valid : parameters.validate = .ok ()) (origin : state.1.Of parameters)
    (ran : passes patience count state = .ok () last) :
    last.1.Of parameters ∧ state.1.population.Grown last.1.population := by
  induction count generalizing state with
  | zero =>
      cases ran
      exact ⟨origin, origin.sound.grown⟩
  | succ count ih =>
      obtain ⟨_, next, first, later⟩ := bind_eq_ok_iff.1 ran
      have passed := pass_ok (origin.ready valid) first
      obtain ⟨of, grown⟩ := ih (origin.passed passed) later
      exact ⟨of, passed.grown.trans grown⟩

theorem goesOn_of_passes (valid : parameters.validate = .ok ()) (origin : state.1.Of parameters)
    (ran : passes patience count state = .ok () last)
    (healthy : ¬ last.1.population.allInfected = true)
    (below : Above parameters.maxRounds (state.1.round + count)) :
    ∃ told, told.length = count ∧ GoesOn patience state told last := by
  induction count generalizing state with
  | zero =>
      cases ran
      exact ⟨[], rfl, .refl _⟩
  | succ count ih =>
      obtain ⟨_, next, first, later⟩ := bind_eq_ok_iff.1 ran
      have passed := pass_ok (origin.ready valid) first
      have of := origin.passed passed
      have round : next.1.round = state.1.round + 1 := by rw [passed.rest]
      have goesOn : ¬ next.1.Stops := by
        rw [stops_iff]
        -- What is healthy at the end is healthy here, so it is the cap alone that could stop a run.
        rintro (full | ⟨cap, limit, reached⟩)
        · exact healthy ((passes_behind valid of later).2.allInfected of.sound full)
        · have under := below cap (of.parametersEq ▸ limit)
          omega
      obtain ⟨told, length, ahead⟩ := ih of later (below.mono (by omega))
      exact ⟨roundEnd next :: told, by rw [List.length_cons, length], .pass first goesOn ahead⟩

end

/-- A run can be cut and resumed. Where a run of a fresh epidemic falls short of its cap, a second run of what it
leaves, under no cap or a higher one, returns just as one run under that cap does from the start, and together the
two tell what the one tells. Where passes leave a node healthy and the cap lies above the pass that follows them, a
run behind them returns just as a run from the start, which tells of these passes as well. -/
theorem run_resumed {parameters : Parameters} {fresh : Epidemic} (created : start parameters = .ok fresh) :
    (∀ cap, start (parameters.withCap cap) = .ok (fresh.withCap cap)) ∧
    (∀ cap later stream first shortfall,
      Above later (max cap 2) →
      (fresh.withCap (some cap)).Returns stream first → first.ending = .capped shortfall →
      ∀ course, (fresh.withCap later).Returns stream course ↔
        ∃ second, (first.epidemic.withCap later).Returns first.stream second ∧
          course = { second with events := first.events ++ second.events }) ∧
    ∀ patience count stream later rest node,
      passes patience count (fresh, stream) = .ok () (later, rest) →
      later.population.isInfected node = .ok false →
      Above parameters.maxRounds (count + 1) →
      ∃ told : List RoundEvent, told.length = count ∧
        ∀ course, fresh.Returns stream course ↔
          ∃ second, later.Returns rest second ∧
            course = { second with events := told ++ second.events } := by
  obtain ⟨valid, origin⟩ := start_eq_ok created
  obtain ⟨_, begins, unsettled⟩ := start_fresh created
  refine ⟨start_withCap created, ?_, ?_⟩
  next =>
    intro cap later stream first shortfall above returned short
    have unsettledToo (limit : Option Nat) : (fresh.withCap limit).converged = false := unsettled
    obtain ⟨enough, found⟩ := returned.lasts
    have ran := found enough (Nat.le_refl enough)
    rw [run_eq_runFrom (unsettledToo _)] at ran
    subst ran
    have aboveToo : Above later (max cap ((fresh.withCap (some cap)).round + 1)) := by
      have counter : (fresh.withCap (some cap)).round = firstRound := begins
      rwa [counter]
    exact (goesOn_of_capped rfl aboveToo short).returns_iff (unsettledToo later)
  next =>
    intro patience count stream later rest node ran healthy below
    have of := (passes_behind valid origin ran).1
    have counter : fresh.round + count ≤ count + 1 := by
      rw [begins, firstRound]
      omega
    obtain ⟨told, length, ahead⟩ :=
      goesOn_of_passes valid origin ran (of.sound.not_allInfected healthy) (below.mono counter)
    exact ⟨told, length, ahead.returns_iff unsettled⟩

def onePeerCut : Course :=
  ((onePeerFrom (.fresh 4) 1).withCap (some 0)).run 40 (.ofSeed 1)

def onePeerResumed : Course :=
  (onePeerCut.epidemic.withCap (some 4)).run 40 onePeerCut.stream

def onePeerLate : Course :=
  (onePeerFrom { flags := #[true, true, true, false], infected := 3 } 3).run 40 (Stream.skip 18 (.ofSeed 1))

/-- Under a cap of nothing the four nodes are cut behind their first pass. Taken up again they converge at a cap of
four, as one run does; and so they do behind two passes that were made ahead. -/
theorem onePeer_resumed :
    start onePeer = .ok (onePeerFrom (.fresh 4) 1) ∧
      onePeerCut.ending = .capped { size := 4, rounds := 2, infected := 2 } ∧
      onePeerResumed.ending = .converged 4 ∧
      ((onePeerFrom (.fresh 4) 1).withCap (some 4)).Returns (.ofSeed 1)
        { onePeerResumed with
          events := [.roundEnded 2 2, .roundEnded 3 3, .roundEnded 4 4, .converged 4] } ∧
      passes 40 2 (onePeerFrom (.fresh 4) 1, .ofSeed 1) =
        .ok () (onePeerFrom { flags := #[true, true, true, false], infected := 3 } 3,
          Stream.skip 18 (.ofSeed 1)) ∧
      onePeerLate.ending = .converged 4 ∧
      ∃ told : List RoundEvent, told.length = 2 ∧
        (onePeerFrom (.fresh 4) 1).Returns (.ofSeed 1)
          { onePeerLate with events := told ++ onePeerLate.events } := by
  have created : start onePeer = .ok (onePeerFrom (.fresh 4) 1) := rfl
  have short : onePeerCut.ending = .capped { size := 4, rounds := 2, infected := 2 } := by decide +kernel
  have resumed : onePeerResumed.ending = .converged 4 := by decide +kernel
  have told : onePeerCut.events ++ onePeerResumed.events =
      [.roundEnded 2 2, .roundEnded 3 3, .roundEnded 4 4, .converged 4] := by decide +kernel
  have ran : passes 40 2 (onePeerFrom (.fresh 4) 1, .ofSeed 1) =
      .ok () (onePeerFrom { flags := #[true, true, true, false], infected := 3 } 3,
        Stream.skip 18 (.ofSeed 1)) := by decide +kernel
  have late : onePeerLate.ending = .converged 4 := by decide +kernel
  obtain ⟨_, cut, ahead⟩ := run_resumed created
  have begun : ((onePeerFrom (.fresh 4) 1).withCap (some 0)).Returns (.ofSeed 1) onePeerCut :=
    returns_of_run rfl (by simp [short])
  have whole := (cut 0 (some 4) _ _ _ (by simp [Above]) begun short _).2
    ⟨onePeerResumed, returns_of_run rfl (by simp [resumed]), rfl⟩
  rw [told] at whole
  obtain ⟨front, length, behind⟩ := ahead 40 2 _ _ _ { index := 3 } ran rfl (by simp [Above, onePeer])
  exact ⟨created, short, resumed, whole, ran, late, front, length,
    (behind _).2 ⟨onePeerLate, returns_of_run rfl (by simp [late]), rfl⟩⟩

end Epidemic

end Rumour

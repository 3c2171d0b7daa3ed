import Rumour.Proofs.Epidemic.Patience
import Rumour.Proofs.Epidemic.Rounds

set_option autoImplicit false

/-!
Trails of a run: the states before its first pass and after each of its passes, up to the first at which it
stops. A run with patience enough follows the one trail there is, and a run that returns has followed one.
-/

namespace Rumour.Epidemic

open Rumour.Random

def Stops (epidemic : Epidemic) : Prop :=
  epidemic.population.allInfected = true ∨ epidemic.isCapped = true

structure Trail (patience : Nat) (trail : Nat -> Epidemic × Stream) (count : Nat) : Prop where
  passes : ∀ index, index < count → pass patience (trail index) = .ok () (trail (index + 1))
  positive : 1 ≤ count
  goesOn : ∀ index, 1 ≤ index → index < count → ¬ (trail index).1.Stops
  stops : (trail count).1.Stops

def roundEnd (state : Epidemic × Stream) : RoundEvent :=
  .roundEnded state.1.round state.1.population.infected

def roundEnds (trail : Nat -> Epidemic × Stream) (count : Nat) : List RoundEvent :=
  (List.range count).map fun index => roundEnd (trail (index + 1))

/-- How a run ends at the state in which it stops. -/
def settle (events : List RoundEvent) : Epidemic × Stream -> Course
  | (last, stream) =>
      if last.population.allInfected then
        { events := events ++ [.converged last.round]
          ending := .converged last.round
          epidemic := { last with converged := true }
          stream }
      else
        { events, ending := .capped last.shortfall, epidemic := last, stream }

theorem roundEnds_succ (trail : Nat -> Epidemic × Stream) (count : Nat) :
    roundEnds trail (count + 1) =
      roundEnd (trail 1) :: roundEnds (fun index => trail (index + 1)) count := by
  simp only [roundEnds, List.range_succ_eq_map, List.map_cons, List.map_map]
  rfl

theorem stops_iff (epidemic : Epidemic) :
    epidemic.Stops ↔
      epidemic.population.allInfected = true ∨
        ∃ cap, epidemic.parameters.maxRounds = some cap ∧ cap ≤ epidemic.round := by
  unfold Stops isCapped
  cases epidemic.parameters.maxRounds <;> simp

/-! One turn of the loop -/

section

variable {advance : EStateM Halt (Epidemic × Stream) Unit} {passes : Nat} {epidemic : Epidemic} {stream : Stream}
  {next : Epidemic × Stream}

theorem runOver_stops (ran : advance (epidemic, stream) = .ok () next) (stops : next.1.Stops)
    (events : List RoundEvent) :
    runOver advance (passes + 1) events epidemic stream =
      settle (events.reverse ++ [roundEnd next]) next := by
  by_cases full : next.1.population.allInfected = true
  · simp [runOver, ran, full, settle, roundEnd]
  · have capped := stops.resolve_left full
    simp [runOver, ran, full, capped, settle, roundEnd]

theorem runOver_goesOn (ran : advance (epidemic, stream) = .ok () next) (goesOn : ¬ next.1.Stops)
    (events : List RoundEvent) :
    runOver advance (passes + 1) events epidemic stream =
      runOver advance passes (roundEnd next :: events) next.1 next.2 := by
  obtain ⟨healthy, openEnded⟩ := not_or.1 goesOn
  simp [runOver, ran, healthy, openEnded, roundEnd]

theorem runFrom_stops {patience : Nat} (ran : pass patience (epidemic, stream) = .ok () next)
    (stops : next.1.Stops) (events : List RoundEvent) :
    runFrom patience (passes + 1) events epidemic stream =
      settle (events.reverse ++ [roundEnd next]) next :=
  runOver_stops ran stops events

theorem runFrom_goesOn {patience : Nat} (ran : pass patience (epidemic, stream) = .ok () next)
    (goesOn : ¬ next.1.Stops) (events : List RoundEvent) :
    runFrom patience (passes + 1) events epidemic stream =
      runFrom patience passes (roundEnd next :: events) next.1 next.2 :=
  runOver_goesOn ran goesOn events

end

section

variable {patience passes rounds : Nat} {events : List RoundEvent} {epidemic : Epidemic} {stream : Stream}

/-- A run that converges does so after its first pass, or it goes on to converge later. -/
theorem converged_cases
    (converges : (runFrom patience (passes + 1) events epidemic stream).ending = .converged rounds) :
    ∃ next, pass patience (epidemic, stream) = .ok () next ∧ next.1.round = epidemic.round + 1 ∧
      (next.1.population.allInfected = true ∧ rounds = epidemic.round + 1 ∨
        ¬ next.1.Stops ∧
          (runFrom patience passes (roundEnd next :: events) next.1 next.2).ending =
            .converged rounds) := by
  cases ran : pass patience (epidemic, stream) with
  | error halt state => simp [runFrom, runOver, ran] at converges
  | ok _ next =>
      have round : next.1.round = epidemic.round + 1 := by rw [pass_rest ran]
      refine ⟨next, rfl, round, ?_⟩
      by_cases stops : next.1.Stops
      next =>
        rw [runFrom_stops ran stops] at converges
        by_cases full : next.1.population.allInfected = true <;> simp [settle, full] at converges
        exact .inl ⟨full, by omega⟩
      next =>
        rw [runFrom_goesOn ran stops] at converges
        exact .inr ⟨stops, converges⟩

theorem round_lt_of_converged
    (converges : (runFrom patience passes events epidemic stream).ending = .converged rounds) :
    epidemic.round < rounds := by
  induction passes generalizing events epidemic stream with
  | zero => cases converges
  | succ passes ih =>
      obtain ⟨next, _, round, ⟨_, _⟩ | ⟨_, later⟩⟩ := converged_cases converges
      · omega
      · have beyond := ih later
        omega

end

/-! Whole runs -/

/-- With as many passes as the trail has, the loop follows it to its end. -/
theorem Trail.runFrom_eq {patience count : Nat} {trail : Nat -> Epidemic × Stream}
    (follows : Trail patience trail count) {passes : Nat} (enough : count ≤ passes)
    (events : List RoundEvent) :
    runFrom patience passes events (trail 0).1 (trail 0).2 =
      settle (events.reverse ++ roundEnds trail count) (trail count) := by
  -- On the length of the trail: behind its first pass the rest of it is a trail of the rest of the loop.
  induction count generalizing trail passes events with
  | zero => exact absurd follows.positive (by simp)
  | succ count ih =>
      obtain ⟨passes, rfl⟩ := Nat.exists_eq_add_one_of_ne_zero (by omega : passes ≠ 0)
      have ran := follows.passes 0 (Nat.zero_lt_succ count)
      by_cases single : count = 0
      next =>
        subst single
        rw [runFrom_stops ran follows.stops]
        rfl
      next =>
        have goesOn := follows.goesOn 1 (Nat.le_refl 1) (by omega)
        have rest : Trail patience (fun index => trail (index + 1)) count :=
          { passes := fun index within => follows.passes (index + 1) (by omega)
            positive := by omega
            goesOn := fun index _ within => follows.goesOn (index + 1) (by omega) (by omega)
            stops := follows.stops }
        rw [runFrom_goesOn ran goesOn, ih rest (by omega), roundEnds_succ, List.reverse_cons,
          List.append_assoc]
        rfl

def before (state : Epidemic × Stream) (trail : Nat -> Epidemic × Stream) : Nat -> Epidemic × Stream
  | 0 => state
  | index + 1 => trail index

theorem trail_single {patience : Nat} {state next : Epidemic × Stream}
    (ran : pass patience state = .ok () next) (stops : next.1.Stops) :
    Trail patience (before state fun _ => next) 1 := by
  constructor
  next =>
    intro index within
    obtain rfl : index = 0 := by omega
    exact ran
  next => exact Nat.le_refl 1
  next => omega
  next => exact stops

theorem Trail.cons {patience count : Nat} {state : Epidemic × Stream}
    {trail : Nat -> Epidemic × Stream} (follows : Trail patience trail count)
    (ran : pass patience state = .ok () (trail 0)) (goesOn : ¬ (trail 0).1.Stops) :
    Trail patience (before state trail) (count + 1) := by
  constructor
  next =>
    intro index within
    cases index with
    | zero => exact ran
    | succ index => exact follows.passes index (by omega)
  next => omega
  next =>
    intro index later within
    cases index with
    | zero => omega
    | succ index =>
        cases index with
        | zero => exact goesOn
        | succ index => exact follows.goesOn (index + 1) (by omega) (by omega)
  next => exact follows.stops

theorem exists_trail {patience passes : Nat} {events : List RoundEvent} {epidemic : Epidemic}
    {stream : Stream}
    (returned : ∀ halt, (runFrom patience passes events epidemic stream).ending ≠ .halted halt) :
    ∃ trail count, Trail patience trail count ∧ trail 0 = (epidemic, stream) ∧ count ≤ passes := by
  induction passes generalizing events epidemic stream with
  | zero => exact absurd rfl (returned .unfinished)
  | succ passes ih =>
      cases ran : pass patience (epidemic, stream) with
      | error halt state => exact absurd (by simp [runFrom, runOver, ran]) (returned halt)
      | ok _ next =>
          by_cases stops : next.1.Stops
          next => exact ⟨_, 1, trail_single ran stops, rfl, by omega⟩
          next =>
            rw [runFrom_goesOn ran stops] at returned
            obtain ⟨trail, count, follows, begins, enough⟩ := ih returned
            obtain rfl : trail 0 = next := begins
            exact ⟨_, count + 1, follows.cons ran stops, rfl, by omega⟩

theorem Trail.lasting {less enough count : Nat} {trail : Nat -> Epidemic × Stream}
    (follows : Trail less trail count) (patient : less ≤ enough) : Trail enough trail count :=
  { follows with
    passes := fun index within => pass_lasting less enough patient _ _ _ (follows.passes index within) }

theorem runFrom_lasting {less enough few many : Nat} {events : List RoundEvent} {epidemic : Epidemic}
    {stream : Stream}
    (returned : ∀ halt, (runFrom less few events epidemic stream).ending ≠ .halted halt)
    (patient : less ≤ enough) (more : few ≤ many) :
    runFrom enough many events epidemic stream = runFrom less few events epidemic stream := by
  obtain ⟨trail, count, follows, begins, within⟩ := exists_trail returned
  have short := follows.runFrom_eq within events
  have long := (follows.lasting patient).runFrom_eq (Nat.le_trans within more) events
  rw [begins] at short long
  exact long.trans short.symm

/-! Walks -/

/-- States each of which a pass makes of the one before, with whatever patience. -/
def Walk (trail : Nat -> Epidemic × Stream) (count : Nat) : Prop :=
  ∀ index, index < count → ∃ patience, pass patience (trail index) = .ok () (trail (index + 1))

theorem Trail.walk {patience count : Nat} {trail : Nat -> Epidemic × Stream}
    (follows : Trail patience trail count) : Walk trail count :=
  fun index within => ⟨patience, follows.passes index within⟩

theorem Walk.patience {trail : Nat -> Epidemic × Stream} {count : Nat} (walk : Walk trail count) :
    ∃ enough, ∀ index, index < count → pass enough (trail index) = .ok () (trail (index + 1)) := by
  induction count with
  | zero => exact ⟨0, by omega⟩
  | succ count ih =>
      -- The pass that takes the most patience settles how much is enough.
      obtain ⟨early, passes⟩ := ih fun index within => walk index (by omega)
      obtain ⟨late, last⟩ := walk count (Nat.lt_succ_self count)
      refine ⟨max early late, fun index within => ?_⟩
      rcases Nat.lt_succ_iff_lt_or_eq.1 within with inner | rfl
      · exact pass_lasting early _ (Nat.le_max_left _ _) _ _ _ (passes index inner)
      · exact pass_lasting late _ (Nat.le_max_right _ _) _ _ _ last

structure Behind (parameters : Parameters) (epidemic : Epidemic) (count : Nat) (later : Epidemic) :
    Prop where
  of : later.Of parameters
  round : later.round = epidemic.round + count
  converged : later.converged = epidemic.converged

theorem Walk.passed {parameters : Parameters} (valid : parameters.validate = .ok ())
    {trail : Nat -> Epidemic × Stream} {count index : Nat} (walk : Walk trail count)
    (within : index < count) (origin : (trail index).1.Of parameters) :
    (trail index).1.Passed (trail (index + 1)).1 := by
  obtain ⟨patience, ran⟩ := walk index within
  exact pass_ok (origin.ready valid) ran

theorem Walk.behind {parameters : Parameters} (valid : parameters.validate = .ok ())
    {trail : Nat -> Epidemic × Stream} {count : Nat} (walk : Walk trail count)
    (origin : (trail 0).1.Of parameters) {index : Nat} (within : index ≤ count) :
    Behind parameters (trail 0).1 index (trail index).1 := by
  induction index with
  | zero => exact ⟨origin, rfl, rfl⟩
  | succ index ih =>
      have reached := ih (Nat.le_of_succ_le within)
      have passed := walk.passed valid within reached.of
      refine ⟨reached.of.passed passed, ?_, ?_⟩
      · rw [passed.rest, ← Nat.add_assoc, ← reached.round]
      · rw [passed.rest, ← reached.converged]

end Rumour.Epidemic

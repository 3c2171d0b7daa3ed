import Rumour.Proofs.Epidemic.HeadStart

set_option autoImplicit false

/-!
Caps. A pass does not read the cap, and a run reads it only after it has looked for a healthy node. So a run under
a cap follows the run without one, up to the first round that the cap allows to be the last.
-/

namespace Rumour

open Rumour.Random

def Parameters.withCap (parameters : Parameters) (cap : Option Nat) : Parameters :=
  { parameters with maxRounds := cap }

@[simp] theorem Parameters.validate_withCap (parameters : Parameters) (cap : Option Nat) :
    (parameters.withCap cap).validate = parameters.validate := rfl

namespace Epidemic

def withCap (epidemic : Epidemic) (cap : Option Nat) : Epidemic :=
  { epidemic with parameters := epidemic.parameters.withCap cap }

theorem pass_withCap {patience : Nat} {epidemic after : Epidemic} {stream rest : Stream}
    (ran : pass patience (epidemic, stream) = .ok () (after, rest)) (cap : Option Nat) :
    pass patience (epidemic.withCap cap, stream) = .ok () (after.withCap cap, rest) := by
  have rule : (epidemic.withCap cap).contactRule = epidemic.contactRule := rfl
  simp only [pass, rule] at ran ⊢
  simp only [withCap]
  split at ran
  next =>
    cases ran
    rfl
  next => cases ran

theorem start_fresh {parameters : Parameters} {fresh : Epidemic} (created : start parameters = .ok fresh) :
    fresh.parameters = parameters ∧ fresh.round = firstRound ∧ fresh.converged = false := by
  unfold start at created
  split at created
  next => cases created
  next =>
    cases created
    exact ⟨rfl, rfl, rfl⟩

theorem start_withCap {parameters : Parameters} {fresh : Epidemic} (created : start parameters = .ok fresh)
    (cap : Option Nat) : start (parameters.withCap cap) = .ok (fresh.withCap cap) := by
  unfold start at created ⊢
  rw [Parameters.validate_withCap]
  split at created
  next => cases created
  next =>
    cases created
    rfl

end Epidemic

def Course.withCap (course : Course) (cap : Option Nat) : Course :=
  { course with epidemic := course.epidemic.withCap cap }

namespace Epidemic

theorem stops_withCap_iff {epidemic : Epidemic} (healthy : ¬ epidemic.population.allInfected = true)
    (cap : Nat) : (epidemic.withCap (some cap)).Stops ↔ cap ≤ epidemic.round := by
  rw [stops_iff]
  simp [withCap, Parameters.withCap, healthy]

variable {patience passes rounds : Nat} {events : List RoundEvent} {epidemic : Epidemic} {stream : Stream}

theorem runFrom_withCap
    (converges : (runFrom patience passes events epidemic stream).ending = .converged rounds) {cap : Nat}
    (within : rounds ≤ max cap (epidemic.round + 1)) :
    runFrom patience passes events (epidemic.withCap (some cap)) stream =
      (runFrom patience passes events epidemic stream).withCap (some cap) := by
  induction passes generalizing events epidemic stream with
  | zero => rfl
  | succ passes ih =>
      obtain ⟨next, ran, round, ⟨full, _⟩ | ⟨goesOn, later⟩⟩ := converged_cases converges
      next =>
        have fullToo : (next.1.withCap (some cap)).population.allInfected = true := full
        rw [runFrom_stops (pass_withCap ran _) (.inl fullToo), runFrom_stops ran (.inl full)]
        simp only [settle, full, fullToo, if_true]
        rfl
      next =>
        -- The run converges behind the next round, so the cap allows it to go on as well.
        have beyond := round_lt_of_converged later
        have goesOnToo : ¬ (next.1.withCap (some cap)).Stops := by
          rw [stops_withCap_iff (not_or.1 goesOn).1]
          omega
        rw [runFrom_goesOn (pass_withCap ran _) goesOnToo, runFrom_goesOn ran goesOn]
        exact ih later (by omega)

theorem runFrom_cut
    (converges : (runFrom patience passes events epidemic stream).ending = .converged rounds) {cap : Nat}
    (beyond : max cap (epidemic.round + 1) < rounds) :
    ∃ infected, (runFrom patience passes events (epidemic.withCap (some cap)) stream).ending =
      .capped
        { size := epidemic.parameters.size
          rounds := max cap (epidemic.round + 1)
          infected } := by
  induction passes generalizing events epidemic stream with
  | zero => cases converges
  | succ passes ih =>
      obtain ⟨next, ran, round, ⟨_, last⟩ | ⟨goesOn, later⟩⟩ := converged_cases converges
      next => omega
      next =>
        have size : next.1.parameters.size = epidemic.parameters.size := by rw [pass_rest ran]
        have healthy := (not_or.1 goesOn).1
        -- The cap is looked at behind the pass, so a cap that the counter has passed before ends the run here.
        by_cases reached : cap ≤ next.1.round
        next =>
          have healthyToo : ¬ (next.1.withCap (some cap)).population.allInfected = true := healthy
          have counter : max cap (epidemic.round + 1) = next.1.round := by omega
          rw [runFrom_stops (pass_withCap ran _) ((stops_withCap_iff healthy cap).2 reached), counter, ← size]
          simp only [settle, healthyToo]
          exact ⟨_, rfl⟩
        next =>
          have goesOnToo := mt (stops_withCap_iff healthy cap).1 reached
          have counter : max cap (next.1.round + 1) = max cap (epidemic.round + 1) := by omega
          rw [runFrom_goesOn (pass_withCap ran _) goesOnToo, ← size, ← counter]
          exact ih later (by omega)

end Epidemic

/-! Whole trials -/

section

variable {patience rounds : Nat} {parameters : Parameters} {stream left : Stream}

theorem simulate_eq_ok_iff :
    simulate patience parameters stream = .ok (.ok rounds) left ↔
      ∃ fresh, Epidemic.start parameters = .ok fresh ∧
        (fresh.run patience stream).ending = .converged rounds ∧
        (fresh.run patience stream).stream = left := by
  simp only [simulate]
  cases Epidemic.start parameters with
  | error fault => simp
  | ok fresh => cases ending : (fresh.run patience stream).ending <;> simp [ending]

theorem simulate_withCap (converges : simulate patience parameters stream = .ok (.ok rounds) left) {cap : Nat}
    (within : rounds ≤ max cap 2) :
    simulate patience (parameters.withCap (some cap)) stream = .ok (.ok rounds) left := by
  obtain ⟨fresh, created, ending, rest⟩ := simulate_eq_ok_iff.1 converges
  obtain ⟨_, first, unsettled⟩ := Epidemic.start_fresh created
  have unsettledToo : (fresh.withCap (some cap)).converged = false := unsettled
  rw [Epidemic.run_eq_runFrom unsettled] at ending rest
  -- The counter is two after the pass that is always made, so caps below two are as two.
  have same := Epidemic.runFrom_withCap ending (by rwa [first])
  refine simulate_eq_ok_iff.2 ⟨_, Epidemic.start_withCap created _, ?_⟩
  rw [Epidemic.run_eq_runFrom unsettledToo, same]
  exact ⟨ending, rest⟩

theorem simulate_cut (converges : simulate patience parameters stream = .ok (.ok rounds) left) {cap : Nat}
    (beyond : max cap 2 < rounds) :
    ∃ infected rest, simulate patience (parameters.withCap (some cap)) stream =
      .ok (.error (.capped { size := parameters.size, rounds := max cap 2, infected })) rest := by
  obtain ⟨fresh, created, ending, _⟩ := simulate_eq_ok_iff.1 converges
  obtain ⟨rfl, first, unsettled⟩ := Epidemic.start_fresh created
  have unsettledToo : (fresh.withCap (some cap)).converged = false := unsettled
  rw [Epidemic.run_eq_runFrom unsettled] at ending
  obtain ⟨infected, cut⟩ := Epidemic.runFrom_cut ending (by rwa [first])
  refine ⟨infected, (Epidemic.runFrom patience patience [] (fresh.withCap (some cap)) stream).stream, ?_⟩
  simp only [simulate, Epidemic.start_withCap created, Epidemic.run_eq_runFrom unsettledToo, cut, first]
  rfl

end

end Rumour

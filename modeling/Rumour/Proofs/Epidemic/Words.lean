import Rumour.Epidemic.Words
import Rumour.Proofs.Epidemic.Leads

set_option autoImplicit false

/-!
Counters without a bound and counters that are words. The counter only grows, so where it is below the last word at
the end of a pass or a run it has been below it throughout, and counting in words makes no difference.
-/

namespace Rumour.Epidemic

open Rumour.Random

variable {patience passes : Nat} {events : List RoundEvent} {epidemic : Epidemic} {stream : Stream}

theorem inWord_of_lt (room : epidemic.round < UInt64.size) : epidemic.inWord = epidemic := by
  rw [inWord, Nat.mod_eq_of_lt room]

theorem wordPass_of_ok {next : Epidemic × Stream} (ran : pass patience (epidemic, stream) = .ok () next)
    (room : next.1.round < UInt64.size) : wordPass patience (epidemic, stream) = .ok () next := by
  rw [wordPass, ran]
  simp only [inWord_of_lt room]

theorem wordPass_eq_pass (room : (stateOf (pass patience (epidemic, stream))).1.round < UInt64.size) :
    wordPass patience (epidemic, stream) = pass patience (epidemic, stream) := by
  cases ran : pass patience (epidemic, stream) with
  | error halt left => rw [wordPass, ran]
  | ok _ next =>
      rw [ran] at room
      exact wordPass_of_ok ran room

theorem epidemic_settle_round (told : List RoundEvent) (last : Epidemic × Stream) :
    (settle told last).epidemic.round = last.1.round := by
  by_cases full : last.1.population.allInfected = true <;> simp [settle, full]

theorem round_le_runFrom :
    epidemic.round ≤ (runFrom patience passes events epidemic stream).epidemic.round := by
  induction passes generalizing events epidemic stream with
  | zero => exact Nat.le_refl _
  | succ passes ih =>
      cases ran : pass patience (epidemic, stream) with
      | error halt left =>
          have kept : left.1.round = epidemic.round := by
            rw [pass_eq] at ran
            split at ran <;> cases ran
            rfl
          simp [runFrom, runOver, ran, kept]
      | ok _ next =>
          have counted : next.1.round = epidemic.round + 1 := by rw [pass_rest ran]
          by_cases stops : next.1.Stops
          next =>
            rw [runFrom_stops ran stops, epidemic_settle_round]
            omega
          next =>
            rw [runFrom_goesOn ran stops]
            have later : next.1.round ≤
                (runFrom patience passes (roundEnd next :: events) next.1 next.2).epidemic.round := ih
            omega

theorem runOver_eq_runFrom (room : (runFrom patience passes events epidemic stream).epidemic.round < UInt64.size) :
    runOver (wordPass patience) passes events epidemic stream = runFrom patience passes events epidemic stream := by
  induction passes generalizing events epidemic stream with
  | zero => rfl
  | succ passes ih =>
      cases ran : pass patience (epidemic, stream) with
      | error halt left =>
          have same : wordPass patience (epidemic, stream) = .error halt left := by rw [wordPass, ran]
          simp [runFrom, runOver, ran, same]
      | ok _ next =>
          by_cases stops : next.1.Stops
          next =>
            rw [runFrom_stops ran stops] at room ⊢
            rw [epidemic_settle_round] at room
            exact runOver_stops (wordPass_of_ok ran room) stops events
          next =>
            rw [runFrom_goesOn ran stops] at room ⊢
            have inside : next.1.round < UInt64.size := Nat.lt_of_le_of_lt round_le_runFrom room
            rw [runOver_goesOn (wordPass_of_ok ran inside) stops]
            exact ih room

/-- What is shown of runs without a bound on their counter holds of runs that count in words, as long as the counter
is a word at the end. -/
theorem wordRun_eq_run (room : (epidemic.run patience stream).epidemic.round < UInt64.size) :
    wordRun patience epidemic stream = epidemic.run patience stream := by
  cases settled : epidemic.converged with
  | true => simp [wordRun, run, runBy, settled]
  | false =>
      rw [run_eq_runFrom settled] at room ⊢
      have unsettled : wordRun patience epidemic stream =
          runOver (wordPass patience) patience [] epidemic stream := by simp [wordRun, runBy, settled]
      rw [unsettled]
      exact runOver_eq_runFrom room

end Rumour.Epidemic

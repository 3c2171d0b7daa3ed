import Mathlib.Logic.Relation
import Rumour.Proofs.Epidemic.Trail

set_option autoImplicit false

/-!
What an epidemic can come to. Single passes and runs, each on a stream of its own, lead from one state to the
next; they keep what belongs to the parameters, and an epidemic that has converged stays so, while its runs do
nothing.
-/

namespace Rumour.Epidemic

open Rumour.Random

theorem start_eq_ok {parameters : Parameters} {fresh : Epidemic} (created : start parameters = .ok fresh) :
    parameters.validate = .ok () ∧ fresh.Of parameters := by
  cases valid : parameters.validate with
  | error fault => simp [start, valid] at created
  | ok _ =>
      obtain ⟨epidemic, started, origin, _⟩ := start_of valid
      rw [created] at started
      cases started
      exact ⟨rfl, origin⟩

theorem run_of_converged {epidemic : Epidemic} (converged : epidemic.converged = true) (patience : Nat)
    (stream : Stream) :
    epidemic.run patience stream =
      { events := [], ending := .converged epidemic.round, epidemic, stream } := by
  simp [run, runBy, converged]

theorem run_eq_runFrom {epidemic : Epidemic} (unsettled : epidemic.converged = false) (patience : Nat)
    (stream : Stream) :
    epidemic.run patience stream = runFrom patience patience [] epidemic stream := by
  simp [run, runBy, runFrom, unsettled]

theorem run_halted {parameters : Parameters} (valid : parameters.validate = .ok ()) {epidemic : Epidemic}
    (origin : epidemic.Of parameters) {patience : Nat} {stream : Stream} {halt : Halt}
    (halted : (epidemic.run patience stream).ending = .halted halt) : halt = .unfinished := by
  cases settled : epidemic.converged with
  | true => simp [run_of_converged settled] at halted
  | false =>
      rw [run_eq_runFrom settled] at halted
      have ends := runFrom_ends (fun epidemic => epidemic.Of parameters) patience
        (fun _ of => of.ready valid) (fun _ _ of passed => of.passed passed) (fun _ of _ _ => of)
        patience [] epidemic stream origin
      rw [halted] at ends
      cases ends
      rfl

/-! Moves -/

/-- What can be done with an epidemic, on any stream: one pass, or a run that returns. -/
inductive Moves : Epidemic -> Epidemic -> Prop where
  | pass {epidemic next : Epidemic} (patience : Nat) (stream rest : Stream)
      (ran : Epidemic.pass patience (epidemic, stream) = .ok () (next, rest)) : Moves epidemic next
  | run {epidemic : Epidemic} (patience : Nat) (stream : Stream)
      (returned : ∀ halt, (epidemic.run patience stream).ending ≠ .halted halt) :
      Moves epidemic (epidemic.run patience stream).epidemic

def Leads : Epidemic -> Epidemic -> Prop :=
  Relation.ReflTransGen Moves

theorem Of.settled {parameters : Parameters} {last : Epidemic × Stream} (origin : last.1.Of parameters)
    (events : List RoundEvent) : (settle events last).epidemic.Of parameters := by
  by_cases full : last.1.population.allInfected = true
  · simp only [settle, full, if_true]
    exact { origin with }
  · simp only [settle, full]
    exact origin

theorem Of.run {parameters : Parameters} (valid : parameters.validate = .ok ()) {epidemic : Epidemic}
    (origin : epidemic.Of parameters) {patience : Nat} {stream : Stream}
    (returned : ∀ halt, (epidemic.run patience stream).ending ≠ .halted halt) :
    (epidemic.run patience stream).epidemic.Of parameters := by
  cases settled : epidemic.converged with
  | true =>
      rw [run_of_converged settled]
      exact origin
  | false =>
      -- A run that returns has followed a trail, and it ends in the last state of it.
      rw [run_eq_runFrom settled] at returned ⊢
      obtain ⟨trail, count, follows, begins, enough⟩ := exists_trail returned
      have first : (trail 0).1.Of parameters := begins ▸ origin
      have last := (follows.walk.behind valid first (Nat.le_refl count)).of
      have followed := follows.runFrom_eq enough []
      rw [begins] at followed
      rw [followed]
      exact last.settled _

theorem Moves.of {parameters : Parameters} (valid : parameters.validate = .ok ())
    {epidemic next : Epidemic} (moves : epidemic.Moves next) (origin : epidemic.Of parameters) :
    next.Of parameters := by
  cases moves with
  | pass patience stream rest ran => exact origin.passed (pass_ok (origin.ready valid) ran)
  | run patience stream returned => exact origin.run valid returned

theorem Moves.converged {parameters : Parameters} (valid : parameters.validate = .ok ())
    {epidemic next : Epidemic} (moves : epidemic.Moves next) (origin : epidemic.Of parameters)
    (settled : epidemic.converged = true) : next.converged = true := by
  cases moves with
  | pass patience stream rest ran =>
      rw [(pass_ok (origin.ready valid) ran).rest]
      exact settled
  | run patience stream returned =>
      rw [run_of_converged settled]
      exact settled

theorem Leads.of {parameters : Parameters} (valid : parameters.validate = .ok ())
    {epidemic later : Epidemic} (leads : epidemic.Leads later) (origin : epidemic.Of parameters) :
    later.Of parameters := by
  induction leads with
  | refl => exact origin
  | tail _ moves ih => exact moves.of valid ih

theorem Leads.converged {parameters : Parameters} (valid : parameters.validate = .ok ())
    {epidemic later : Epidemic} (leads : epidemic.Leads later) (origin : epidemic.Of parameters)
    (settled : epidemic.converged = true) : later.converged = true := by
  induction leads with
  | refl => exact settled
  | tail earlier moves ih => exact moves.converged valid (Leads.of valid earlier origin) ih

end Rumour.Epidemic

import Rumour.Epidemic.Run
import Rumour.Proofs.Epidemic.Contacts
import Rumour.Proofs.Population.Growth

set_option autoImplicit false

/-!
What a pass does to an epidemic. While the rule draws no node beyond the population, a pass meets no fault,
grows the population and raises the counter by one; all else of the epidemic stays as it is.
-/

namespace Rumour

open Rumour.Random

namespace Spread

def From (old : Population) (spread : Spread) : Prop :=
  old.Grown spread.population

def Interrupted (old : Population) (halt : Halt) (spread : Spread) : Prop :=
  halt = .unfinished ∧ spread.From old

theorem nodeStep_guarantees (old : Population) (rule : ContactRule) (patience : Nat) (node : NodeId)
    (within : rule.Within old.size) (inside : node.index < old.size) :
    Guarantees (nodeStep rule patience node) (From old) (fun _ => From old) (Interrupted old) := by
  rintro ⟨population, stream⟩ grown
  have drawn := rule.drawContacts_guarantees patience old.size within stream trivial
  cases found : rule.drawContacts patience stream with
  | error halt rest =>
      rw [found] at drawn
      simp only [nodeStep, found]
      exact ⟨drawn, grown⟩
  | ok contacts rest =>
      rw [found] at drawn
      have members : ∀ member ∈ node :: contacts, member.index < old.size := by
        intro member listed
        rcases List.mem_cons.1 listed with rfl | contact
        · exact inside
        · exact drawn member contact
      have exchanged := old.exchange_inside node contacts members population grown
      cases ran : Population.exchange node contacts population with
      | error fault next =>
          rw [ran] at exchanged
          exact exchanged.elim
      | ok _ next =>
          rw [ran] at exchanged
          simp only [nodeStep, found, ran]
          exact exchanged

theorem visit_guarantees (old : Population) (rule : ContactRule) (patience count index : Nat)
    (within : rule.Within old.size) (inside : index + count ≤ old.size) :
    Guarantees (visit rule patience count index) (From old) (fun _ => From old) (Interrupted old) := by
  induction count generalizing index with
  | zero => exact .pure () fun _ grown => grown
  | succ count ih =>
      exact .bind (nodeStep_guarantees old rule patience { index } within (by simp only; omega))
        fun _ => ih (index + 1) (by omega)

end Spread

namespace Epidemic

/-- The population is sound and holds every node that a pass visits or draws. -/
structure Ready (epidemic : Epidemic) : Prop where
  sound : epidemic.population.Sound
  visits : epidemic.nodeCount ≤ epidemic.population.size
  draws : epidemic.contactRule.Within epidemic.population.size

structure Passed (before after : Epidemic) : Prop where
  grown : before.population.Grown after.population
  rest : after = { before with population := after.population, round := before.round + 1 }

theorem visit_ready {epidemic : Epidemic} (ready : epidemic.Ready) (patience : Nat) :
    Guarantees (Spread.visit epidemic.contactRule patience epidemic.nodeCount 0)
      (Spread.From epidemic.population) (fun _ => Spread.From epidemic.population)
      (Spread.Interrupted epidemic.population) := by
  have visits : 0 + epidemic.nodeCount ≤ epidemic.population.size := by
    have covered := ready.visits
    omega
  exact Spread.visit_guarantees epidemic.population epidemic.contactRule patience epidemic.nodeCount 0
    ready.draws visits

/-- A pass is the visits under the rule of the moment; only one that comes to its end is counted. -/
theorem pass_eq (epidemic : Epidemic) (patience : Nat) (stream : Stream) :
    pass patience (epidemic, stream) =
      match Spread.visit epidemic.contactRule patience epidemic.nodeCount 0
          { population := epidemic.population, stream } with
      | .ok () { population, stream } =>
          .ok () ({ epidemic with population, round := epidemic.round + 1 }, stream)
      | .error halt { population, stream } => .error halt ({ epidemic with population }, stream) := rfl

theorem pass_rest {epidemic after : Epidemic} {stream rest : Stream} {patience : Nat}
    (ran : pass patience (epidemic, stream) = .ok () (after, rest)) :
    after = { epidemic with population := after.population, round := epidemic.round + 1 } := by
  simp only [pass] at ran
  split at ran
  next =>
    cases ran
    rfl
  next => cases ran

theorem pass_ok {epidemic after : Epidemic} {stream rest : Stream} {patience : Nat}
    (ready : epidemic.Ready) (ran : pass patience (epidemic, stream) = .ok () (after, rest)) :
    epidemic.Passed after := by
  have sure := visit_ready ready patience
  have begun : Spread.From epidemic.population { population := epidemic.population, stream } :=
    ready.sound.grown
  simp only [pass] at ran
  split at ran
  next population _ visited =>
    cases ran
    have grown := sure.of_ok begun visited
    exact ⟨grown, rfl⟩
  next => cases ran

theorem pass_error {epidemic after : Epidemic} {stream rest : Stream} {patience : Nat} {halt : Halt}
    (ready : epidemic.Ready) (ran : pass patience (epidemic, stream) = .error halt (after, rest)) :
    halt = .unfinished := by
  have sure := visit_ready ready patience
  have begun : Spread.From epidemic.population { population := epidemic.population, stream } :=
    ready.sound.grown
  simp only [pass] at ran
  split at ran
  next => cases ran
  next visited =>
    cases ran
    exact (sure.of_error begun visited).1

end Epidemic

end Rumour

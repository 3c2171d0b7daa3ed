import Rumour.Epidemic.Run
import Rumour.Proofs.Guarantee

set_option autoImplicit false

/-!
Patience. It bounds how long an action may go on, and it has no other part in it: what an action finds with
some patience it finds with more. So the answers of a pass are its own, whatever patience it was given.
-/

namespace Rumour

open Rumour.Random

variable {ε σ α β : Type}

/-- More patience finds the same value. -/
def Lasting (action : Nat -> EStateM ε σ α) : Prop :=
  ∀ less enough, less ≤ enough → ∀ before value after,
    action less before = .ok value after → action enough before = .ok value after

namespace Lasting

theorem const (action : EStateM ε σ α) : Lasting fun _ => action :=
  fun _ _ _ _ _ _ found => found

theorem bind {first : Nat -> EStateM ε σ α} {next : Nat -> α -> EStateM ε σ β} (lasts : Lasting first)
    (others : ∀ value, Lasting fun patience => next patience value) :
    Lasting fun patience => first patience >>= next patience := by
  intro less enough more before value after found
  simp only [Bind.bind, EStateM.bind] at found ⊢
  cases ran : first less before with
  | error cause between => simp [ran] at found
  | ok middle between =>
      rw [ran] at found
      rw [lasts less enough more before middle between ran]
      exact others middle less enough more between value after found

end Lasting

theorem draw_lasting (dial : Dial) : Lasting dial.draw := by
  intro less enough more before value after found
  obtain ⟨extra, rfl⟩ := Nat.exists_eq_add_of_le more
  exact dial.draw_add less extra value before after found

namespace ContactRule

theorem drawPeers_lasting (dial : Dial) (count : Nat) (drawn : List NodeId) :
    Lasting fun patience => drawPeers dial patience count drawn := by
  induction count generalizing drawn with
  | zero => exact .const _
  | succ count ih => exact .bind (draw_lasting dial) fun index => ih ({ index } :: drawn)

theorem drawSeedContact_lasting (drawn : List NodeId) (contact : Option SeedContact) :
    Lasting fun patience => drawSeedContact patience drawn contact := by
  cases contact with
  | none => exact .const _
  | some contact =>
      refine .bind (.const _) fun heads => ?_
      cases heads with
      | false => exact .const _
      | true => exact .bind (draw_lasting contact.dial) fun index => .const _

theorem drawContacts_lasting (rule : ContactRule) : Lasting rule.drawContacts := by
  refine .bind (drawPeers_lasting rule.dial rule.peers []) fun peers => ?_
  exact .bind (drawSeedContact_lasting peers rule.seedContact) fun drawn => .const _

end ContactRule

namespace Spread

theorem nodeStep_lasting (rule : ContactRule) (node : NodeId) :
    Lasting fun patience => nodeStep rule patience node := by
  rintro less enough more ⟨population, stream⟩ value after found
  simp only [nodeStep] at found ⊢
  cases drawn : rule.drawContacts less stream with
  | error halt rest => simp [drawn] at found
  | ok contacts rest =>
      rw [drawn] at found
      rw [rule.drawContacts_lasting less enough more stream contacts rest drawn]
      exact found

theorem visit_lasting (rule : ContactRule) (count index : Nat) :
    Lasting fun patience => visit rule patience count index := by
  induction count generalizing index with
  | zero => exact .const _
  | succ count ih => exact .bind (nodeStep_lasting rule { index }) fun _ => ih (index + 1)

end Spread

theorem Epidemic.pass_lasting : Lasting Epidemic.pass := by
  rintro less enough more ⟨epidemic, stream⟩ value after found
  simp only [pass] at found ⊢
  cases visited : Spread.visit epidemic.contactRule less epidemic.nodeCount 0
      { population := epidemic.population, stream } with
  | error halt rest => simp [visited] at found
  | ok _ rest =>
      have again : Spread.visit epidemic.contactRule enough epidemic.nodeCount 0
          { population := epidemic.population, stream := stream } = .ok () rest :=
        Spread.visit_lasting epidemic.contactRule epidemic.nodeCount 0 less enough more _ _ rest visited
      rw [visited] at found
      rw [again]
      exact found

end Rumour

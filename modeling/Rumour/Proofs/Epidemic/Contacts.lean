import Rumour.Epidemic.Contacts
import Rumour.Proofs.Guarantee

set_option autoImplicit false

/-!
Which contacts a rule draws. A rule within a size draws nodes below it and meets no fault; the one thing that
can stop it is the end of its patience.
-/

namespace Rumour

open Rumour.Random Rumour.Binary

def Halt.Unfinished {σ : Type} (halt : Halt) (_ : σ) : Prop :=
  halt = .unfinished

namespace Random.Dial

theorem spin_error (dial : Dial) (patience : Nat) (before after : Stream) (halt : Halt)
    (stopped : dial.spin patience before = .error halt after) : halt = .unfinished := by
  induction patience generalizing before with
  | zero =>
      cases stopped
      rfl
  | succ patience ih =>
      simp only [spin] at stopped
      split at stopped
      next => cases stopped
      next => exact ih _ stopped

theorem draw_guarantees (dial : Dial) (patience : Nat) (positive : 0 < dial.size) :
    Guarantees (dial.draw patience) (fun _ => True) (fun value _ => value < dial.size)
      Halt.Unfinished := by
  intro before _
  cases drawn : dial.draw patience before with
  | ok value after => exact dial.draw_lt patience value before after drawn
  | error halt after =>
      rw [draw, if_neg (by omega)] at drawn
      exact dial.spin_error patience before after halt drawn

end Random.Dial

namespace ContactRule

/-- Every dial has a node to draw and none beyond a size, and the bias has a coin. -/
structure Within (rule : ContactRule) (size : Nat) : Prop where
  peersPos : 0 < rule.dial.size
  peersLe : rule.dial.size ≤ size
  coin : ∀ contact, rule.seedContact = some contact → contact.coin.isSome
  seedsPos : ∀ contact, rule.seedContact = some contact → 0 < contact.dial.size
  seedsLe : ∀ contact, rule.seedContact = some contact → contact.dial.size ≤ size

def AllBelow (size : Nat) (nodes : List NodeId) : Prop :=
  ∀ node ∈ nodes, node.index < size

theorem AllBelow.cons {size index : Nat} {nodes : List NodeId} (below : AllBelow size nodes)
    (inside : index < size) : AllBelow size ({ index } :: nodes) := by
  intro node member
  rcases List.mem_cons.1 member with rfl | later
  · exact inside
  · exact below node later

theorem drawPeers_guarantees (dial : Dial) (patience size count : Nat) (drawn : List NodeId)
    (positive : 0 < dial.size) (within : dial.size ≤ size) (below : AllBelow size drawn) :
    Guarantees (drawPeers dial patience count drawn) (fun _ => True)
      (fun nodes _ => AllBelow size nodes) Halt.Unfinished := by
  induction count generalizing drawn with
  | zero => exact .pure _ fun _ _ => below
  | succ count ih =>
      refine .bind (dial.draw_guarantees patience positive) fun index => ?_
      intro stream inside
      exact ih ({ index } :: drawn) (below.cons (Nat.lt_of_lt_of_le inside within)) stream trivial

theorem flip?_guarantees (coin : Option Coin) (present : coin.isSome) :
    Guarantees (Coin.flip? coin) (fun _ => True) (fun _ _ => True) Halt.Unfinished := by
  intro stream _
  obtain ⟨chosen, rfl⟩ := Option.isSome_iff_exists.1 present
  cases chosen <;> trivial

theorem drawSeedContact_guarantees (rule : ContactRule) (patience size : Nat) (drawn : List NodeId)
    (within : rule.Within size) (below : AllBelow size drawn) :
    Guarantees (drawSeedContact patience drawn rule.seedContact) (fun _ => True)
      (fun nodes _ => AllBelow size nodes) Halt.Unfinished := by
  cases chosen : rule.seedContact with
  | none => exact .pure _ fun _ _ => below
  | some contact =>
      refine .bind (flip?_guarantees contact.coin (within.coin contact chosen)) fun heads => ?_
      cases heads with
      | false => exact .pure _ fun _ _ => below
      | true =>
          refine .bind (contact.dial.draw_guarantees patience (within.seedsPos contact chosen))
            fun index => ?_
          exact .pure _ fun _ inside =>
            below.cons (Nat.lt_of_lt_of_le inside (within.seedsLe contact chosen))

theorem drawContacts_guarantees (rule : ContactRule) (patience size : Nat)
    (within : rule.Within size) :
    Guarantees (rule.drawContacts patience) (fun _ => True) (fun nodes _ => AllBelow size nodes)
      Halt.Unfinished := by
  have noneYet : AllBelow size [] := by simp [AllBelow]
  refine .bind (drawPeers_guarantees rule.dial patience size rule.peers [] within.peersPos
    within.peersLe noneYet) fun peers => ?_
  intro stream peersBelow
  have seeded := drawSeedContact_guarantees rule patience size peers within peersBelow
  refine Guarantees.bind seeded (fun drawn => ?_) stream trivial
  refine .pure _ fun _ below => ?_
  simpa [AllBelow] using below

/-- A bias within the unit interval is a number, so it has a coin. -/
theorem ofBias_isSome {bias : Binary64} (unit : bias.inUnitInterval = true) :
    (Coin.ofBias bias).isSome := by
  have number : bias.isNaN = false := by
    simp only [Binary64.inUnitInterval, Bool.or_eq_true, decide_eq_true_eq, Bool.and_eq_true] at unit
    have ends : Binary64.unit ≤ Format.double.infinity := by decide
    simp only [Binary64.isNaN, decide_eq_false_iff_not]
    omega
  have present := mt (Coin.ofBias_eq_none_iff bias).1 (by simp [number])
  exact Option.isSome_iff_ne_none.2 present

end ContactRule

end Rumour

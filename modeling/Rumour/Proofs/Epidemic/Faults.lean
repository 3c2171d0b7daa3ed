import Rumour.Proofs.Epidemic.Pass
import Rumour.Proofs.Population.Beside

set_option autoImplicit false

/-!
Faults of a pass. A rule that draws no node beyond the population can still have no coin, or no seed to draw where the
coin falls. These are its only faults. Where they stop a pass, the nodes before have taken their steps, and nothing
else has happened. What a pass does is settled by the nodes that its rule can draw; those behind them stay as they are.
-/

namespace Rumour

open Rumour.Random

namespace ContactRule

/-- No dial reaches beyond a size, and that of the peers has a node to draw. -/
structure Bounded (rule : ContactRule) (size : Nat) : Prop where
  peersPos : 0 < rule.dial.size
  peersLe : rule.dial.size ≤ size
  seedsLe : ∀ contact, rule.seedContact = some contact → contact.dial.size ≤ size

variable {rule : ContactRule} {patience : Nat} {stream before rest : Stream}

theorem drawPeers_below {dial : Dial} {size count : Nat} {drawn nodes : List NodeId} (within : dial.size ≤ size)
    (below : AllBelow size drawn) (ran : drawPeers dial patience count drawn stream = .ok nodes rest) :
    AllBelow size nodes := by
  induction count generalizing drawn stream with
  | zero =>
      cases ran
      exact below
  | succ count ih =>
      obtain ⟨index, middle, one, more⟩ := bind_eq_ok_iff.1 ran
      have inside := dial.draw_lt patience index stream middle one
      exact ih (below.cons (Nat.lt_of_lt_of_le inside within)) more

theorem drawContacts_below {size : Nat} (bounded : rule.Bounded size) {contacts : List NodeId}
    (ran : rule.drawContacts patience stream = .ok contacts rest) : AllBelow size contacts := by
  obtain ⟨peers, middle, drawnPeers, more⟩ := bind_eq_ok_iff.1 ran
  obtain ⟨drawn, last, seeded, shaped⟩ := bind_eq_ok_iff.1 more
  cases shaped
  have noneYet : AllBelow size [] := by simp [AllBelow]
  have peersBelow := drawPeers_below bounded.peersLe noneYet drawnPeers
  have below : AllBelow size drawn := by
    cases chosen : rule.seedContact with
    | none =>
        rw [chosen] at seeded
        cases seeded
        exact peersBelow
    | some contact =>
        rw [chosen] at seeded
        obtain ⟨heads, fallen, _, later⟩ := bind_eq_ok_iff.1 seeded
        cases heads with
        | false =>
            cases later
            exact peersBelow
        | true =>
            obtain ⟨index, after, one, done⟩ := bind_eq_ok_iff.1 later
            cases done
            have inside := contact.dial.draw_lt patience index fallen _ one
            exact peersBelow.cons (Nat.lt_of_lt_of_le inside (bounded.seedsLe contact chosen))
  simpa [AllBelow] using below

/-- Over a stream the peers of a node are drawn, and its coin is tossed over what they leave. -/
def Tosses (rule : ContactRule) (patience : Nat) (stream before : Stream) : Prop :=
  ∃ peers, drawPeers rule.dial patience rule.peers [] stream = .ok peers before

theorem flip?_eq_error_iff {coin : Option Coin} {halt : Halt} :
    Coin.flip? coin before = .error halt rest ↔
      coin = none ∧ halt = .fault .invalidProbability ∧ rest = before := by
  cases coin with
  | none =>
      constructor
      · intro stopped
        cases stopped
        exact ⟨rfl, rfl, rfl⟩
      · rintro ⟨_, rfl, rfl⟩
        rfl
  | some coin =>
      constructor
      · intro stopped
        cases coin <;> cases stopped
      · rintro ⟨missing, _, _⟩
        cases missing

theorem draw_fault_iff {dial : Dial} {fault : Fault} :
    dial.draw patience before = .error (.fault fault) rest ↔
      dial.size = 0 ∧ fault = .emptyRange ∧ rest = before := by
  by_cases empty : dial.size = 0
  next =>
    rw [Dial.draw, if_pos empty]
    constructor
    · intro stopped
      cases stopped
      exact ⟨empty, rfl, rfl⟩
    · rintro ⟨_, rfl, rfl⟩
      rfl
  next =>
    rw [Dial.draw, if_neg empty]
    constructor
    · intro stopped
      cases dial.spin_error patience before rest _ stopped
    · exact fun nothing => absurd nothing.1 empty

theorem drawSeedContact_fault_iff {drawn : List NodeId} {chosen : Option SeedContact} {fault : Fault} :
    drawSeedContact patience drawn chosen before = .error (.fault fault) rest ↔
      ∃ contact, chosen = some contact ∧
        (contact.coin = none ∧ fault = .invalidProbability ∧ rest = before ∨
          contact.dial.size = 0 ∧ fault = .emptyRange ∧ Coin.flip? contact.coin before = .ok true rest) := by
  cases chosen with
  | none =>
      constructor
      · intro stopped
        cases stopped
      · rintro ⟨_, missing, _⟩
        cases missing
  | some contact =>
      rw [drawSeedContact, bind_eq_error_iff, flip?_eq_error_iff]
      simp only [Halt.fault.injEq, Option.some.injEq, exists_eq_left']
      refine or_congr Iff.rfl ⟨?_, ?_⟩
      next =>
        rintro ⟨heads, fallen, falls, stopped⟩
        cases heads with
        | false => cases stopped
        | true =>
            rcases bind_eq_error_iff.1 stopped with undrawn | ⟨_, _, _, impossible⟩
            · obtain ⟨empty, named, rfl⟩ := draw_fault_iff.1 undrawn
              exact ⟨empty, named, falls⟩
            · cases impossible
      next =>
        rintro ⟨empty, named, falls⟩
        exact ⟨true, rest, falls, bind_eq_error_iff.2 (.inl (draw_fault_iff.2 ⟨empty, named, rfl⟩))⟩

theorem drawContacts_fault_iff (peers : 0 < rule.dial.size) {fault : Fault} :
    rule.drawContacts patience stream = .error (.fault fault) rest ↔
      ∃ contact before, rule.seedContact = some contact ∧ rule.Tosses patience stream before ∧
        (contact.coin = none ∧ fault = .invalidProbability ∧ rest = before ∨
          contact.dial.size = 0 ∧ fault = .emptyRange ∧ Coin.flip? contact.coin before = .ok true rest) := by
  have noneYet : AllBelow rule.dial.size [] := by simp [AllBelow]
  have sure := drawPeers_guarantees rule.dial patience rule.dial.size rule.peers [] peers (Nat.le_refl _) noneYet
  rw [drawContacts, bind_eq_error_iff]
  -- The peers meet no fault, so what stops stands behind them.
  constructor
  next =>
    rintro (early | ⟨drawn, before, ran, stopped⟩)
    · cases sure.of_error trivial early
    · rcases bind_eq_error_iff.1 stopped with unseeded | ⟨_, _, _, impossible⟩
      · obtain ⟨contact, chosen, why⟩ := drawSeedContact_fault_iff.1 unseeded
        exact ⟨contact, before, chosen, ⟨drawn, ran⟩, why⟩
      · cases impossible
  next =>
    rintro ⟨contact, before, chosen, ⟨drawn, ran⟩, why⟩
    exact .inr ⟨drawn, before, ran, bind_eq_error_iff.2 (.inl (drawSeedContact_fault_iff.2 ⟨contact, chosen, why⟩))⟩

end ContactRule

namespace Spread

variable {rule : ContactRule} {patience count index : Nat} {node : NodeId} {spread next left : Spread} {halt : Halt}

theorem nodeStep_cases (bounded : rule.Bounded spread.population.size) (inside : node.index < spread.population.size) :
    (∃ next, nodeStep rule patience node spread = .ok () next ∧ next.population.size = spread.population.size ∧
      ∃ contacts, rule.drawContacts patience spread.stream = .ok contacts next.stream) ∨
    ∃ halt rest, nodeStep rule patience node spread = .error halt { spread with stream := rest } ∧
      rule.drawContacts patience spread.stream = .error halt rest := by
  cases drawn : rule.drawContacts patience spread.stream with
  | error halt rest => exact .inr ⟨halt, rest, by simp only [nodeStep, drawn], rfl⟩
  | ok contacts rest =>
      -- All that meet are inside, so the exchange does not stop.
      have members : spread.population.Inside (Population.Meeting.members { node, contacts }) :=
        List.forall_mem_cons.2 ⟨inside, ContactRule.drawContacts_below bounded drawn⟩
      obtain ⟨population, held, spreads⟩ := Population.Meeting.hold_spreads members
      have exchanged : Population.exchange node contacts spread.population = .ok () population := held
      exact .inl ⟨{ population, stream := rest }, by simp only [nodeStep, drawn, exchanged], spreads.size, contacts, rfl⟩

theorem nodeStep_size (bounded : rule.Bounded spread.population.size) (inside : node.index < spread.population.size)
    (stepped : nodeStep rule patience node spread = .ok () next) : next.population.size = spread.population.size := by
  rcases nodeStep_cases bounded inside with ⟨_, ended, sized, _⟩ | ⟨_, _, stopped, _⟩
  · cases stepped.symm.trans ended
    exact sized
  · cases stepped.symm.trans stopped

theorem nodeStep_eq_error_iff (bounded : rule.Bounded spread.population.size)
    (inside : node.index < spread.population.size) :
    nodeStep rule patience node spread = .error halt left ↔
      rule.drawContacts patience spread.stream = .error halt left.stream ∧ left.population = spread.population := by
  rcases nodeStep_cases bounded inside with ⟨next, stepped, _, contacts, drawn⟩ | ⟨early, rest, stopped, drawn⟩
  · rw [stepped, drawn]
    simp
  · rw [stopped, drawn]
    obtain ⟨population, stream⟩ := left
    constructor
    · intro same
      cases same
      exact ⟨rfl, rfl⟩
    · rintro ⟨same, rfl⟩
      cases same
      rfl

/-- A pass stops where a node cannot draw its contacts, behind the steps of the nodes before. -/
theorem visit_eq_error_iff (bounded : rule.Bounded spread.population.size)
    (inside : index + count ≤ spread.population.size) :
    visit rule patience count index spread = .error halt left ↔
      ∃ early < count, ∃ middle, visit rule patience early index spread = .ok () middle ∧
        rule.drawContacts patience middle.stream = .error halt left.stream ∧
        left.population = middle.population := by
  -- The node that stops is the first one, or it stands behind a step and the later visits stop at it.
  induction count generalizing index spread with
  | zero =>
      constructor
      · intro stopped
        cases stopped
      · rintro ⟨_, none, _⟩
        cases none
  | succ count ih =>
      have here : index < spread.population.size := by omega
      rw [visit, bind_eq_error_iff, nodeStep_eq_error_iff bounded here]
      constructor
      next =>
        rintro (first | ⟨_, next, stepped, later⟩)
        · exact ⟨0, by omega, spread, rfl, first⟩
        · have sized := nodeStep_size bounded here stepped
          obtain ⟨early, within, middle, visited, why⟩ := (ih (sized ▸ bounded) (by omega)).1 later
          exact ⟨early + 1, by omega, middle, bind_eq_ok_iff.2 ⟨(), next, stepped, visited⟩, why⟩
      next =>
        rintro ⟨early, within, middle, visited, why⟩
        cases early with
        | zero =>
            cases visited
            exact .inl why
        | succ early =>
            obtain ⟨_, next, stepped, later⟩ := bind_eq_ok_iff.1 visited
            have sized := nodeStep_size bounded here stepped
            exact .inr ⟨(), next, stepped, (ih (sized ▸ bounded) (by omega)).2 ⟨early, by omega, middle, later, why⟩⟩

/-! Nodes behind those that are drawn -/

def beside (back : Population) (spread : Spread) : Spread :=
  { spread with population := spread.population.beside back }

theorem nodeStep_beside (back : Population) (bounded : rule.Bounded spread.population.size)
    (inside : node.index < spread.population.size) :
    nodeStep rule patience node (spread.beside back) = seenAs (beside back) (nodeStep rule patience node spread) := by
  cases drawn : rule.drawContacts patience spread.stream with
  | error halt rest => simp only [nodeStep, beside, drawn, seenAs]
  | ok contacts rest =>
      have members : spread.population.Inside (node :: contacts) :=
        List.forall_mem_cons.2 ⟨inside, ContactRule.drawContacts_below bounded drawn⟩
      simp only [nodeStep, beside, drawn, Population.exchange_beside back members]
      cases Population.exchange node contacts spread.population <;> rfl

theorem visit_beside (back : Population) (bounded : rule.Bounded spread.population.size)
    (inside : index + count ≤ spread.population.size) :
    visit rule patience count index (spread.beside back) =
      seenAs (beside back) (visit rule patience count index spread) := by
  induction count generalizing index spread with
  | zero => rfl
  | succ count ih =>
      have here : index < spread.population.size := by omega
      simp only [visit, Bind.bind, EStateM.bind, nodeStep_beside back bounded here]
      cases ran : nodeStep rule patience { index } spread with
      | error halt left => rfl
      | ok _ next =>
          have sized := nodeStep_size bounded here ran
          exact ih (sized ▸ bounded) (by omega)

/-! Passes over the first nodes -/

theorem nodeStep_grown (old : Population) (rule : ContactRule) (patience : Nat) (node : NodeId) :
    Guarantees (nodeStep rule patience node) (From old) (fun _ => From old) (fun _ => From old) := by
  rintro ⟨population, stream⟩ grown
  cases drawn : rule.drawContacts patience stream with
  | error halt rest =>
      simp only [nodeStep, drawn]
      exact grown
  | ok contacts rest =>
      have exchanged := old.exchange_grown node contacts population grown
      simp only [nodeStep, drawn]
      cases ran : Population.exchange node contacts population with
      | error fault next =>
          rw [ran] at exchanged
          exact exchanged.1
      | ok _ next =>
          rw [ran] at exchanged
          exact exchanged

theorem visit_grown (old : Population) (rule : ContactRule) (patience count index : Nat) :
    Guarantees (visit rule patience count index) (From old) (fun _ => From old) (fun _ => From old) := by
  induction count generalizing index with
  | zero => exact .pure () fun _ grown => grown
  | succ count ih => exact .bind (nodeStep_grown old rule patience { index }) fun _ => ih (index + 1)

theorem stateOf_visit_grown (rule : ContactRule) (patience count index : Nat) {spread : Spread}
    (counted : spread.population.infected = spread.population.flags.count true) :
    spread.population.Grown (stateOf (visit rule patience count index spread)).population :=
  (visit_grown spread.population rule patience count index).keeps (Population.grown_refl counted)

section

variable {size : Nat} {population : Population} (stream : Stream)

theorem visit_first (bounded : rule.Bounded size) (counted : population.infected = population.flags.count true)
    (covers : size ≤ population.size) :
    visit rule patience size 0 { population, stream } =
      seenAs (beside (population.behind size))
        (visit rule patience size 0 { population := population.first size, stream }) := by
  let front : Spread := { population := population.first size, stream }
  have sized : front.population.size = size := Population.size_first covers
  have parts : visit rule patience size 0 (front.beside (population.behind size)) =
      seenAs (beside (population.behind size)) (visit rule patience size 0 front) :=
    visit_beside _ (sized.symm ▸ bounded) (by omega)
  rwa [beside, Population.first_beside_behind counted] at parts

theorem size_visit_first (covers : size ≤ population.size) :
    (stateOf (visit rule patience size 0 { population := population.first size, stream })).population.size =
      size :=
  (stateOf_visit_grown rule patience size 0 rfl).size.trans (Population.size_first covers)

theorem getElem?_visit_front (bounded : rule.Bounded size)
    (counted : population.infected = population.flags.count true) (covers : size ≤ population.size)
    (inside : index < size) :
    (stateOf (visit rule patience size 0 { population, stream })).population.flags[index]? =
      (stateOf (visit rule patience size 0
        { population := population.first size, stream })).population.flags[index]? := by
  have sized : (stateOf (visit rule patience size 0
      { population := population.first size, stream })).population.size = size := size_visit_first stream covers
  rw [visit_first stream bounded counted covers, stateOf_seenAs]
  exact Population.getElem?_beside_front _ (sized.symm ▸ inside)

theorem getElem?_visit_behind (bounded : rule.Bounded size)
    (counted : population.infected = population.flags.count true) (covers : size ≤ population.size)
    (beyond : size ≤ index) :
    (stateOf (visit rule patience size 0 { population, stream })).population.flags[index]? =
      population.flags[index]? := by
  have sized : (stateOf (visit rule patience size 0
      { population := population.first size, stream })).population.size = size := size_visit_first stream covers
  have held := Population.size_first covers
  have before := Population.getElem?_beside_back (population.behind size) (held.symm ▸ beyond)
  rw [Population.first_beside_behind counted, held] at before
  have after := Population.getElem?_beside_back (population.behind size) (sized.symm ▸ beyond)
  rw [sized] at after
  rw [visit_first stream bounded counted covers, stateOf_seenAs, before]
  exact after

end

end Spread

end Rumour

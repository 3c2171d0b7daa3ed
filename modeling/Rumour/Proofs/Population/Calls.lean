import Rumour.Proofs.Population.Growth

set_option autoImplicit false

/-!
Histories of calls to a population. Calls go on after a call that met a node outside. Whatever was called,
the count is the number of set flags, the origin is infected, and no call clears a flag.
-/

namespace Rumour.Population

inductive Call where
  | infect (node : NodeId)
  | exchange (node : NodeId) (contacts : List NodeId)
  deriving DecidableEq, Repr

/-- The population that an action leaves, whatever it answers. -/
def leftBy {α : Type} (action : EStateM Fault Population α) (population : Population) : Population :=
  match action population with
  | .ok _ left => left
  | .error _ left => left

theorem leftBy_ok {α : Type} {action : EStateM Fault Population α} {population left : Population}
    {answer : α} (answered : action population = .ok answer left) : leftBy action population = left := by
  simp only [leftBy, answered]

theorem leftBy_error {α : Type} {action : EStateM Fault Population α} {population left : Population}
    {fault : Fault} (stopped : action population = .error fault left) :
    leftBy action population = left := by
  simp only [leftBy, stopped]

theorem leftBy_of_guarantees {α : Type} {action : EStateM Fault Population α}
    {kept : Population -> Prop} {cause : Fault -> Prop}
    (sure : Guarantees action kept (fun _ => kept) fun fault population => kept population ∧ cause fault)
    {population : Population} (holds : kept population) : kept (leftBy action population) := by
  cases ran : action population with
  | ok answer left =>
      rw [leftBy_ok ran]
      exact sure.of_ok holds ran
  | error fault left =>
      rw [leftBy_error ran]
      exact (sure.of_error holds ran).1

def Call.leave (call : Call) (population : Population) : Population :=
  match call with
  | .infect node => leftBy (Population.infect node) population
  | .exchange node contacts => leftBy (Population.exchange node contacts) population

def after (population : Population) : List Call -> Population
  | [] => population
  | call :: rest => (call.leave population).after rest

theorem leave_grown (old : Population) (call : Call) {population : Population}
    (grown : old.Grown population) : old.Grown (call.leave population) := by
  cases call with
  | infect node => exact leftBy_of_guarantees (infect_grown old node) grown
  | exchange node contacts => exact leftBy_of_guarantees (exchange_grown old node contacts) grown

theorem after_grown {old population : Population} (grown : old.Grown population) (calls : List Call) :
    old.Grown (population.after calls) := by
  induction calls generalizing population with
  | nil => exact grown
  | cons call rest ih => exact ih (leave_grown old call grown)

/-- A population is made of any number of nodes but none, as long as there is room for their flags. -/
theorem ofSize_eq_ok_iff (size : Nat) (population : Population) :
    ofSize size = .ok population ↔ 0 < size ∧ size ≤ largestBlock ∧ population = fresh size := by
  by_cases room : size ≤ largestBlock <;> by_cases empty : size = 0 <;>
    simp [ofSize, reserve, flagWidth, room, empty, Bind.bind, Except.bind, throw, throwThe,
      MonadExceptOf.throw, pure, Except.pure, Nat.pos_iff_ne_zero, eq_comm]

theorem allInfected_iff_of_counted {population : Population}
    (counted : population.infected = population.flags.count true) :
    population.allInfected = true ↔ ∀ flag ∈ population.flags, flag = true := by
  simp only [allInfected, decide_eq_true_eq, counted, Population.size, Array.count_eq_size]
  exact ⟨fun full flag member => (full flag member).symm, fun full flag member => (full flag member).symm⟩

theorem Sound.allInfected_iff {population : Population} (sound : population.Sound) :
    population.allInfected = true ↔ ∀ flag ∈ population.flags, flag = true :=
  allInfected_iff_of_counted sound.counted

theorem Sound.not_allInfected {population : Population} (sound : population.Sound) {node : NodeId}
    (healthy : population.isInfected node = .ok false) : ¬ population.allInfected = true := by
  intro full
  have unset := Array.mem_of_getElem? ((isInfected_eq_ok_iff _ _ _).1 healthy)
  exact absurd (sound.allInfected_iff.1 full false unset) (by decide)

theorem infect_true_iff (node : NodeId) (population : Population) :
    (∃ left, infect node population = .ok true left) ↔
      (leftBy (infect node) population).infected = population.infected + 1 := by
  cases found : population.isInfected node with
  | error fault => simp [leftBy, infect, found]
  | ok flag => cases flag <;> simp [leftBy, infect, found]

/-- After any calls, those that stopped at a node outside included, the size is the first one, the origin is
infected and the count is that of the set flags; the next call clears no flag, and an infection answers true
exactly when it raises the count by one. -/
theorem after_counted {size : Nat} {start : Population} (created : ofSize size = .ok start)
    {calls : List Call} {population : Population} (called : start.after calls = population) :
    population.size = size ∧ population.isInfected NodeId.origin = .ok true ∧
      population.infected = population.flags.count true ∧
      1 ≤ population.infected ∧ population.infected ≤ size ∧
      (population.allInfected = true ↔ ∀ flag ∈ population.flags, flag = true) ∧
      (∀ (call : Call) (node : NodeId), population.isInfected node = .ok true →
        (call.leave population).isInfected node = .ok true) ∧
      ∀ node : NodeId, (∃ left, infect node population = .ok true left) ↔
        ((Call.infect node).leave population).infected = population.infected + 1 := by
  obtain ⟨positive, _, rfl⟩ := (ofSize_eq_ok_iff size start).1 created
  have begun := fresh_sound size positive
  have grown : (fresh size).Grown population := called ▸ after_grown begun.grown calls
  have sound := grown.sound begun
  have sized : population.size = size := grown.size.trans (size_fresh size)
  refine ⟨sized, ?_, sound.counted, sound.infected_pos, ?_, sound.allInfected_iff, ?_, ?_⟩
  · rw [isInfected_eq_ok_iff]
    exact sound.origin
  · rw [← sized]
    exact sound.infected_le
  · intro call node set
    rw [isInfected_eq_ok_iff] at *
    exact (leave_grown population call sound.grown).kept node.index set
  · intro node
    exact infect_true_iff node population

/-- A push that stops behind its first contact, a pull from outside, and an infection outside. -/
def strayCalls : List Call :=
  [.exchange { index := 0 } [{ index := 2 }, { index := 9 }, { index := 1 }],
    .exchange { index := 1 } [{ index := 9 }, { index := 2 }], .infect { index := 9 }]

theorem strayCalls_counted :
    ofSize 3 = .ok (fresh 3) ∧
      (fresh 3).after strayCalls = { flags := #[true, false, true], infected := 2 } ∧
      (∃ left, infect { index := 1 } ((fresh 3).after strayCalls) = .ok true left) ∧
      ((Call.infect { index := 1 }).leave ((fresh 3).after strayCalls)).infected = 3 := by
  have created : ofSize 3 = .ok (fresh 3) := rfl
  have called : (fresh 3).after strayCalls = { flags := #[true, false, true], infected := 2 } := by
    decide
  obtain ⟨_, _, _, _, _, _, _, raises⟩ := after_counted created called
  have raised : ((Call.infect { index := 1 }).leave ((fresh 3).after strayCalls)).infected = 3 := by
    decide
  rw [called] at raised ⊢
  exact ⟨created, rfl, (raises { index := 1 }).2 raised, raised⟩

end Rumour.Population

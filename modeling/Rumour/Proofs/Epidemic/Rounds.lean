import Rumour.Proofs.Epidemic.Pass

set_option autoImplicit false

/-!
How a run ends. What holds before every pass and after every pass holds of the epidemic in which a run ends.
From it follow the bounds on the rounds of a simulation: at least two, exactly two for a single node, and no
more than the cap or two; a run that falls short has reached just that bound. A simulation whose parameters
are valid meets no fault.
-/

namespace Rumour

open Rumour.Random

namespace Parameters

theorem validate_eq_ok_iff (parameters : Parameters) :
    parameters.validate = .ok () ↔
      parameters.size ≠ 0 ∧ parameters.size ≤ NodeId.greatestIndex ∧ parameters.peers ≠ 0 ∧
        checkPolicy parameters.policy = .ok () := by
  by_cases empty : parameters.size = 0 <;>
    by_cases large : NodeId.greatestIndex < parameters.size <;>
      by_cases alone : parameters.peers = 0 <;>
        simp [validate, empty, large, alone, Nat.not_le.2, Nat.not_lt.1]

theorem checkPolicy_seedBiased {seeds : Nat} {bias : Binary.Binary64}
    (checked : checkPolicy (.seedBiased seeds bias) = .ok ()) :
    0 < seeds ∧ bias.inUnitInterval = true := by
  simp only [checkPolicy] at checked
  split at checked
  next => cases checked
  next someSeeds =>
    split at checked
    next unit => exact ⟨by omega, unit⟩
    next => cases checked

/-- The rounds that a run of these parameters can report. -/
structure CanTake (parameters : Parameters) (rounds : Nat) : Prop where
  least : 2 ≤ rounds
  single : parameters.size = 1 → rounds = 2
  capped : ∀ cap, parameters.maxRounds = some cap → rounds ≤ max cap 2

/-- Where a run of these parameters can stand when it gives up. -/
structure CanFallShort (parameters : Parameters) (shortfall : Shortfall) : Prop where
  size : shortfall.size = parameters.size
  several : 2 ≤ parameters.size
  capped : ∃ cap, parameters.maxRounds = some cap ∧ shortfall.rounds = max cap 2
  someInfected : 1 ≤ shortfall.infected
  someHealthy : shortfall.infected < parameters.size

/-- The counters at which a run begins or goes on. -/
def Continues (parameters : Parameters) (round : Nat) : Prop :=
  round = Epidemic.firstRound ∨
    Epidemic.firstRound ≤ round ∧ 2 ≤ parameters.size ∧
      ∀ cap, parameters.maxRounds = some cap → round < cap

theorem Continues.canTake {parameters : Parameters} {round : Nat}
    (continues : parameters.Continues round) : parameters.CanTake (round + 1) := by
  simp only [Continues, Epidemic.firstRound] at continues
  rcases continues with first | ⟨begun, several, below⟩
  · exact ⟨by omega, fun _ => by omega, fun _ _ => by omega⟩
  · refine ⟨by omega, fun single => by omega, fun cap capped => ?_⟩
    have under := below cap capped
    omega

/-- At the cap the counter is the cap, or two where the cap is less. -/
theorem Continues.eq_of_le {parameters : Parameters} {round cap : Nat}
    (continues : parameters.Continues round) (capped : parameters.maxRounds = some cap)
    (reached : cap ≤ round + 1) : round + 1 = max cap 2 := by
  simp only [Continues, Epidemic.firstRound] at continues
  rcases continues with first | ⟨begun, _, below⟩
  · omega
  · have under := below cap capped
    omega

end Parameters

namespace Epidemic

inductive Ends (kind : Epidemic -> Prop) : Ending -> Prop where
  | converged (last : Epidemic) (reached : kind last) (full : last.population.allInfected = true) :
      Ends kind (.converged last.round)
  | capped (last : Epidemic) (reached : kind last) (healthy : last.population.allInfected = false)
      (cap : last.isCapped = true) : Ends kind (.capped last.shortfall)
  | unfinished : Ends kind (.halted .unfinished)

/-- The rule of the loop: `before` holds where a pass begins and `after` where it ended. -/
theorem runFrom_ends (before : Epidemic -> Prop) {after : Epidemic -> Prop} (patience : Nat)
    (ready : ∀ epidemic, before epidemic → epidemic.Ready)
    (passes : ∀ epidemic next, before epidemic → epidemic.Passed next → after next)
    (again : ∀ epidemic, after epidemic → epidemic.population.allInfected = false →
      epidemic.isCapped = false → before epidemic)
    (count : Nat) (events : List RoundEvent) (epidemic : Epidemic) (stream : Stream)
    (begun : before epidemic) :
    Ends after (runFrom patience count events epidemic stream).ending := by
  induction count generalizing events epidemic stream with
  | zero => exact .unfinished
  | succ count ih =>
      unfold runFrom runOver
      cases ran : pass patience (epidemic, stream) with
      | error halt state =>
          obtain rfl := pass_error (ready epidemic begun) ran
          exact .unfinished
      | ok _ state =>
          obtain ⟨next, rest⟩ := state
          have reached := passes epidemic next begun (pass_ok (ready epidemic begun) ran)
          simp only
          split
          next full => exact .converged next reached full
          next healthy =>
            split
            next cap => exact .capped next reached (by simpa using healthy) cap
            next openEnded =>
              exact ih _ next rest (again next reached (by simpa using healthy) (by simpa using openEnded))

/-- An epidemic of some parameters, as far as passes do not change it. -/
structure Of (parameters : Parameters) (epidemic : Epidemic) : Prop where
  parametersEq : epidemic.parameters = parameters
  nodes : epidemic.nodeCount = parameters.size
  seeds : epidemic.seedCount = min parameters.policy.seedCount parameters.size
  size : epidemic.population.size = parameters.size
  sound : epidemic.population.Sound

theorem Of.passed {parameters : Parameters} {epidemic next : Epidemic}
    (origin : epidemic.Of parameters) (passed : epidemic.Passed next) : next.Of parameters := by
  have grown := passed.grown
  rw [passed.rest]
  exact
    { parametersEq := origin.parametersEq
      nodes := origin.nodes
      seeds := origin.seeds
      size := grown.size.trans origin.size
      sound := grown.sound origin.sound }

theorem Of.ready {parameters : Parameters} {epidemic : Epidemic}
    (valid : parameters.validate = .ok ()) (origin : epidemic.Of parameters) : epidemic.Ready := by
  obtain ⟨someNodes, _, _, policy⟩ := parameters.validate_eq_ok_iff.1 valid
  have seeds := origin.seeds
  constructor
  · exact origin.sound
  · exact Nat.le_of_eq (origin.nodes.trans origin.size.symm)
  · rw [origin.size]
    simp only [contactRule, origin.parametersEq, origin.nodes]
    -- Only a biased policy has a seed contact, and its check settles the coin and the dial.
    cases chosen : parameters.policy with
    | uniform =>
        constructor <;> simp [ContactRule.ofPolicy, Dial.below, Dial.ofSize]
        omega
    | seedBiased count bias =>
        rw [chosen] at policy seeds
        obtain ⟨someSeeds, unit⟩ := Parameters.checkPolicy_seedBiased policy
        have coin := ContactRule.ofBias_isSome unit
        simp only [Policy.seedCount] at seeds
        constructor <;> simp [ContactRule.ofPolicy, Dial.below, Dial.ofSize, coin, seeds]
        all_goals omega

theorem start_of {parameters : Parameters} (valid : parameters.validate = .ok ()) :
    ∃ epidemic, start parameters = .ok epidemic ∧ epidemic.Of parameters ∧
      epidemic.round = firstRound ∧ epidemic.converged = false := by
  have someNodes := (parameters.validate_eq_ok_iff.1 valid).1
  refine ⟨_, by rw [start, valid], ?_, rfl, rfl⟩
  constructor <;> try rfl
  · simp
  · exact Population.fresh_sound parameters.size (by omega)

theorem run_ends {parameters : Parameters} {epidemic : Epidemic}
    (valid : parameters.validate = .ok ()) (origin : epidemic.Of parameters)
    (first : epidemic.round = firstRound) (fresh : epidemic.converged = false)
    (patience : Nat) (stream : Stream) :
    Ends (fun last => last.Of parameters ∧ ∃ round, parameters.Continues round ∧ last.round = round + 1)
      (epidemic.run patience stream).ending := by
  unfold run runBy
  simp only [fresh, Bool.false_eq_true, if_false]
  apply runFrom_ends fun epidemic => epidemic.Of parameters ∧ parameters.Continues epidemic.round
  · intro epidemic begun
    exact begun.1.ready valid
  · intro epidemic next begun passed
    exact ⟨begun.1.passed passed, epidemic.round, begun.2, by rw [passed.rest]⟩
  · rintro epidemic ⟨origin, round, continues, counted⟩ healthy openEnded
    refine ⟨origin, .inr ⟨?_, ?_, ?_⟩⟩
    · simp [counted, firstRound]
    · have lower := origin.sound.infected_pos
      have upper := origin.sound.infected_lt healthy
      rw [origin.size] at upper
      omega
    · intro cap capped
      simpa [isCapped, origin.parametersEq, capped] using openEnded
  · exact ⟨origin, .inl first⟩

end Epidemic

def Parameters.Allows (parameters : Parameters) : Except RunFault Nat -> Prop
  | .ok rounds => parameters.CanTake rounds
  | .error fault => ∃ shortfall, fault = .capped shortfall ∧ parameters.CanFallShort shortfall

theorem simulate_guarantees (parameters : Parameters) (valid : parameters.validate = .ok ())
    (patience : Nat) :
    Guarantees (simulate patience parameters) (fun _ => True) (fun result _ => parameters.Allows result)
      Halt.Unfinished := by
  intro stream _
  obtain ⟨epidemic, started, origin, first, fresh⟩ := Epidemic.start_of valid
  have ends := Epidemic.run_ends valid origin first fresh patience stream
  simp only [simulate, started]
  generalize (epidemic.run patience stream).ending = ending at ends
  cases ends with
  | converged last reached full =>
      obtain ⟨_, round, continues, counted⟩ := reached
      simpa [Parameters.Allows, counted] using continues.canTake
  | capped last reached healthy cap =>
      obtain ⟨of, round, continues, counted⟩ := reached
      have lower := of.sound.infected_pos
      have upper := of.sound.infected_lt healthy
      rw [of.size] at upper
      refine ⟨last.shortfall, rfl, ?_⟩
      simp only [Epidemic.isCapped, of.parametersEq] at cap
      split at cap
      next limit capped =>
        have counter := continues.eq_of_le capped (by simpa [counted] using cap)
        exact
          { size := by simp [Epidemic.shortfall, of.parametersEq]
            several := by omega
            capped := ⟨limit, capped, counted.trans counter⟩
            someInfected := lower
            someHealthy := upper }
      next => cases cap
  | unfinished => rfl

end Rumour

import Rumour.Proofs.Epidemic.Leads
import Rumour.Proofs.Population.Calls

set_option autoImplicit false

/-!
Where a run ends. From any state that single passes and earlier runs lead to, a run makes just as many passes as
it takes until every flag is set or the counter has reached the cap, and tells of each; full infection comes
before the cap.
-/

namespace Rumour.Epidemic

open Rumour.Random

def infectedAt (trail : Nat -> Epidemic × Stream) (index : Nat) : Nat :=
  (trail index).1.population.flags.count true

def FullAt (trail : Nat -> Epidemic × Stream) (index : Nat) : Prop :=
  ∀ flag ∈ (trail index).1.population.flags, flag = true

def ExitsAt (epidemic : Epidemic) (trail : Nat -> Epidemic × Stream) (index : Nat) : Prop :=
  FullAt trail index ∨
    ∃ cap, epidemic.parameters.maxRounds = some cap ∧ cap ≤ epidemic.round + index

/-- The least positive number of passes after which an exit is open, with the states on the way. -/
structure FirstExit (epidemic : Epidemic) (stream : Stream) (trail : Nat -> Epidemic × Stream)
    (count : Nat) : Prop where
  begins : trail 0 = (epidemic, stream)
  walk : ∀ index, index < count → ∃ patience, pass patience (trail index) = .ok () (trail (index + 1))
  positive : 1 ≤ count
  exits : epidemic.ExitsAt trail count
  least : ∀ index, 1 ≤ index → index < count → ¬ epidemic.ExitsAt trail index

/-! First exits and trails -/

section

variable {parameters : Parameters} {epidemic : Epidemic} {stream : Stream}
  {trail : Nat -> Epidemic × Stream} {count : Nat}

theorem behind_start (valid : parameters.validate = .ok ()) (origin : epidemic.Of parameters)
    (begins : trail 0 = (epidemic, stream)) (walk : Walk trail count) {index : Nat}
    (within : index ≤ count) : Behind parameters epidemic index (trail index).1 := by
  have first : (trail 0).1 = epidemic := congrArg Prod.fst begins
  have reached := walk.behind valid (first ▸ origin) within
  rwa [first] at reached

theorem exitsAt_iff (valid : parameters.validate = .ok ()) (origin : epidemic.Of parameters)
    (begins : trail 0 = (epidemic, stream)) (walk : Walk trail count) {index : Nat}
    (within : index ≤ count) : epidemic.ExitsAt trail index ↔ (trail index).1.Stops := by
  have behind := behind_start valid origin begins walk within
  rw [stops_iff, behind.of.sound.allInfected_iff, behind.round, behind.of.parametersEq,
    ← origin.parametersEq]
  rfl

theorem FirstExit.follows (valid : parameters.validate = .ok ()) (origin : epidemic.Of parameters)
    (firstExit : epidemic.FirstExit stream trail count) {patience : Nat}
    (passes : ∀ index, index < count → Epidemic.pass patience (trail index) = .ok () (trail (index + 1))) :
    Trail patience trail count := by
  constructor
  next => exact passes
  next => exact firstExit.positive
  next =>
    intro index later within
    rw [← exitsAt_iff valid origin firstExit.begins firstExit.walk (Nat.le_of_lt within)]
    exact firstExit.least index later within
  next =>
    rw [← exitsAt_iff valid origin firstExit.begins firstExit.walk (Nat.le_refl count)]
    exact firstExit.exits

theorem Trail.firstExit (valid : parameters.validate = .ok ()) (origin : epidemic.Of parameters)
    (begins : trail 0 = (epidemic, stream)) {patience : Nat} (follows : Trail patience trail count) :
    epidemic.FirstExit stream trail count := by
  constructor
  next => exact begins
  next => exact follows.walk
  next => exact follows.positive
  next =>
    rw [exitsAt_iff valid origin begins follows.walk (Nat.le_refl count)]
    exact follows.stops
  next =>
    intro index later within
    rw [exitsAt_iff valid origin begins follows.walk (Nat.le_of_lt within)]
    exact follows.goesOn index later within

/-- What the observer is told of the rounds, by the flags that are set. -/
def roundsTold (epidemic : Epidemic) (trail : Nat -> Epidemic × Stream) (count : Nat) : List RoundEvent :=
  (List.range count).map fun index =>
    .roundEnded (epidemic.round + (index + 1)) (infectedAt trail (index + 1))

theorem roundEnds_eq_roundsTold (valid : parameters.validate = .ok ()) (origin : epidemic.Of parameters)
    (begins : trail 0 = (epidemic, stream)) (walk : Walk trail count) :
    roundEnds trail count = roundsTold epidemic trail count := by
  apply List.map_congr_left
  intro index member
  have behind := behind_start valid origin begins walk (List.mem_range.1 member)
  rw [roundEnd, behind.round, behind.of.sound.counted]
  rfl

/-- With patience for its longest pass and as many passes, a run follows its first exit. -/
theorem FirstExit.run_eq (valid : parameters.validate = .ok ()) (origin : epidemic.Of parameters)
    (unsettled : epidemic.converged = false) (firstExit : epidemic.FirstExit stream trail count) :
    ∃ enough, ∀ patience, enough ≤ patience →
      epidemic.run patience stream = settle (roundsTold epidemic trail count) (trail count) := by
  obtain ⟨enough, passes⟩ := Walk.patience firstExit.walk
  refine ⟨max enough count, fun patience more => ?_⟩
  have follows : Trail patience trail count := firstExit.follows valid origin fun index within =>
    pass_lasting enough patience (by omega) _ _ _ (passes index within)
  have within : count ≤ patience := by omega
  have followed := follows.runFrom_eq within []
  rw [firstExit.begins] at followed
  rw [run_eq_runFrom unsettled, followed, List.reverse_nil, List.nil_append,
    roundEnds_eq_roundsTold valid origin firstExit.begins firstExit.walk]

theorem settle_full {last : Epidemic × Stream} (of : last.1.Of parameters)
    (full : ∀ flag ∈ last.1.population.flags, flag = true) (events : List RoundEvent) :
    settle events last =
      { events := events ++ [.converged last.1.round]
        ending := .converged last.1.round
        epidemic := { last.1 with converged := true }
        stream := last.2 } := by
  have all := of.sound.allInfected_iff.2 full
  simp [settle, all]

theorem settle_healthy {last : Epidemic × Stream} (of : last.1.Of parameters)
    (healthy : ¬ ∀ flag ∈ last.1.population.flags, flag = true) (events : List RoundEvent) :
    settle events last =
      { events
        ending := .capped
          { size := parameters.size
            rounds := last.1.round
            infected := last.1.population.flags.count true }
        epidemic := last.1
        stream := last.2 } := by
  have some := mt of.sound.allInfected_iff.1 healthy
  simp [settle, some, shortfall, of.parametersEq, of.sound.counted]

theorem FirstExit.infectedAt_bounds (valid : parameters.validate = .ok ())
    (origin : epidemic.Of parameters) (firstExit : epidemic.FirstExit stream trail count) {index : Nat}
    (within : index ≤ count) : 1 ≤ infectedAt trail index ∧ infectedAt trail index ≤ parameters.size := by
  have of := (behind_start valid origin firstExit.begins firstExit.walk within).of
  rw [infectedAt, ← of.sound.counted, ← of.size]
  exact ⟨of.sound.infected_pos, of.sound.infected_le⟩

theorem FirstExit.infectedAt_mono (valid : parameters.validate = .ok ())
    (origin : epidemic.Of parameters) (firstExit : epidemic.FirstExit stream trail count) {index : Nat}
    (within : index < count) : infectedAt trail index ≤ infectedAt trail (index + 1) := by
  have of := (behind_start valid origin firstExit.begins firstExit.walk (Nat.le_of_lt within)).of
  have grown := (Walk.passed valid firstExit.walk within of).grown
  rw [infectedAt, infectedAt, ← of.sound.counted, ← grown.counted]
  exact grown.infected_le of.sound

theorem FirstExit.infectedAt_lt (valid : parameters.validate = .ok ()) (origin : epidemic.Of parameters)
    (firstExit : epidemic.FirstExit stream trail count) (healthy : ¬ FullAt trail count) :
    infectedAt trail count < parameters.size := by
  have of := (behind_start valid origin firstExit.begins firstExit.walk (Nat.le_refl count)).of
  have some := mt of.sound.allInfected_iff.1 healthy
  rw [infectedAt, ← of.sound.counted, ← of.size]
  exact of.sound.infected_lt (by simpa using some)

theorem exists_firstExit (valid : parameters.validate = .ok ()) (origin : epidemic.Of parameters)
    (unsettled : epidemic.converged = false) (patience : Nat) (stream : Stream) :
    (epidemic.run patience stream).ending = .halted .unfinished ∨
      ∃ trail count, epidemic.FirstExit stream trail count := by
  by_cases halted : ∃ halt, (epidemic.run patience stream).ending = .halted halt
  next =>
    obtain ⟨halt, ending⟩ := halted
    exact .inl (run_halted valid origin ending ▸ ending)
  next =>
    rw [run_eq_runFrom unsettled] at halted
    obtain ⟨trail, count, follows, begins, _⟩ := exists_trail (not_exists.1 halted)
    exact .inr ⟨trail, count, follows.firstExit valid origin begins⟩

end

/-- From any state that is not yet settled, a run makes the least positive number of passes after which all flags
are set or the counter has reached the cap. It tells of each pass; where all flags are set it converges, also at
the cap, and else it falls short. A run that does not come to this has come to the end of its patience. What
follows a settled state is settled, and a run of it does nothing. -/
theorem run_first_exit {parameters : Parameters} {fresh epidemic : Epidemic}
    (created : start parameters = .ok fresh) (reached : fresh.Leads epidemic)
    (unsettled : epidemic.converged = false) (stream : Stream) :
    (∀ trail count, epidemic.FirstExit stream trail count →
      (∀ index, index ≤ count → 1 ≤ infectedAt trail index ∧ infectedAt trail index ≤ parameters.size) ∧
      (∀ index, index < count → infectedAt trail index ≤ infectedAt trail (index + 1)) ∧
      ∃ enough, ∀ patience, enough ≤ patience →
        (FullAt trail count →
          epidemic.run patience stream =
            { events := roundsTold epidemic trail count ++ [.converged (epidemic.round + count)]
              ending := .converged (epidemic.round + count)
              epidemic := { (trail count).1 with converged := true }
              stream := (trail count).2 }) ∧
        (¬ FullAt trail count →
          epidemic.run patience stream =
              { events := roundsTold epidemic trail count
                ending := .capped
                  { size := parameters.size
                    rounds := epidemic.round + count
                    infected := infectedAt trail count }
                epidemic := (trail count).1
                stream := (trail count).2 } ∧
            infectedAt trail count < parameters.size ∧ (trail count).1.converged = false)) ∧
    (∀ patience, (epidemic.run patience stream).ending = .halted .unfinished ∨
      ∃ trail count, epidemic.FirstExit stream trail count) ∧
    ∀ settled later, fresh.Leads settled → settled.converged = true → settled.Leads later →
      ∀ patience stream, later.run patience stream =
        { events := [], ending := .converged later.round, epidemic := later, stream } := by
  obtain ⟨valid, begun⟩ := start_eq_ok created
  have origin := reached.of valid begun
  refine ⟨fun trail count firstExit => ⟨?_, ?_, ?_⟩, ?_, ?_⟩
  · exact fun index within => firstExit.infectedAt_bounds valid origin within
  · exact fun index within => firstExit.infectedAt_mono valid origin within
  · obtain ⟨enough, followed⟩ := firstExit.run_eq valid origin unsettled
    have last := behind_start valid origin firstExit.begins firstExit.walk (Nat.le_refl count)
    refine ⟨enough, fun patience more => ⟨fun full => ?_, fun healthy => ⟨?_, ?_, ?_⟩⟩⟩
    · rw [followed patience more, settle_full last.of full, last.round]
    · rw [followed patience more, settle_healthy last.of healthy, last.round]
      rfl
    · exact firstExit.infectedAt_lt valid origin healthy
    · exact last.converged.trans unsettled
  · exact fun patience => exists_firstExit valid origin unsettled patience stream
  · intro settled later leads converged further patience stream
    exact run_of_converged (further.converged valid (leads.of valid begun) converged) patience stream

def fourNodes : Parameters :=
  { size := 4, peers := 1, policy := .uniform, maxRounds := some 4 }

def fourWalked : Nat -> Epidemic × Stream
  | 0 =>
      ({ parameters := fourNodes
         population := .fresh 4
         round := firstRound
         nodeCount := 4
         seedCount := 0
         converged := false }, .ofSeed 1)
  | index + 1 =>
      match pass 40 (fourWalked index) with
      | .ok () next => next
      | .error _ left => left

theorem fourWalked_pass (index : Nat) (within : index < 3) :
    pass 40 (fourWalked index) = .ok () (fourWalked (index + 1)) := by
  obtain rfl | rfl | rfl : index = 0 ∨ index = 1 ∨ index = 2 := by omega
  all_goals rfl

/-- One pass on, the four nodes take two more, the last of which comes to the cap with all of them infected. -/
theorem fourWalked_converges :
    start fourNodes = .ok (fourWalked 0).1 ∧ (fourWalked 0).1.Leads (fourWalked 1).1 ∧
      (fourWalked 1).1.converged = false ∧
      (fourWalked 1).1.FirstExit (fourWalked 1).2 (fun index => fourWalked (index + 1)) 2 ∧
      ∃ enough, ∀ patience, enough ≤ patience →
        ((fourWalked 1).1.run patience (fourWalked 1).2).events =
            [.roundEnded 3 3, .roundEnded 4 4, .converged 4] ∧
          ((fourWalked 1).1.run patience (fourWalked 1).2).ending = .converged 4 := by
  have created : start fourNodes = .ok (fourWalked 0).1 := rfl
  have reached : (fourWalked 0).1.Leads (fourWalked 1).1 :=
    .single (.pass 40 (fourWalked 0).2 (fourWalked 1).2 (fourWalked_pass 0 (by omega)))
  have unsettled : (fourWalked 1).1.converged = false := by decide +kernel
  have round : (fourWalked 1).1.round = 2 := by decide +kernel
  have cap : (fourWalked 1).1.parameters.maxRounds = some 4 := by decide +kernel
  have second : (fourWalked 2).1.population.flags = #[true, true, true, false] := by decide +kernel
  have third : (fourWalked 3).1.population.flags = #[true, true, true, true] := by decide +kernel
  have full : FullAt (fun index => fourWalked (index + 1)) 2 := by simp [FullAt, third]
  have firstExit :
      (fourWalked 1).1.FirstExit (fourWalked 1).2 (fun index => fourWalked (index + 1)) 2 := by
    constructor
    next => rfl
    next => exact fun index within => ⟨40, fourWalked_pass (index + 1) (by omega)⟩
    next => decide
    next => exact .inl full
    next =>
      intro index later within
      obtain rfl : index = 1 := by omega
      simp [ExitsAt, FullAt, second, cap, round]
  obtain ⟨_, _, enough, followed⟩ :=
    (run_first_exit created reached unsettled (fourWalked 1).2).1 _ _ firstExit
  refine ⟨created, reached, unsettled, firstExit, enough, fun patience more => ?_⟩
  rw [(followed patience more).1 full]
  simp [roundsTold, infectedAt, List.range_succ, second, third, round]

end Rumour.Epidemic

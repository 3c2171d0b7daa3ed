import Rumour.Proofs.Epidemic.Cap

set_option autoImplicit false

/-!
Loops that look first. A run makes a pass before it looks for a healthy node. A fresh population of several nodes
has one, so a loop that looks before every pass does the same. A single node is a whole population, infected from
the start: the loop that looks first makes no pass over it, and a run makes one.
-/

namespace Rumour

open Rumour.Random

def Population.someHealthy (population : Population) : Bool :=
  population.flags.toList.any (! ·)

theorem Population.someHealthy_eq {population : Population} (sound : population.Sound) :
    population.someHealthy = !population.allInfected := by
  rw [Bool.eq_iff_iff, Bool.not_eq_true', ← Bool.not_eq_true, sound.allInfected_iff]
  simp only [someHealthy, List.any_eq_true, Bool.not_eq_true', Array.mem_toList_iff, not_forall, Bool.not_eq_true,
    exists_prop]

theorem Population.fresh_healthy {size : Nat} (several : 2 ≤ size) : (fresh size).allInfected = false := by
  have more : 1 ≠ size := by omega
  simp only [allInfected, size_fresh, decide_eq_false_iff_not]
  exact more

/-- While some node is healthy: a pass, and the counter one up. Where the counter then stands at the cap or above
and some node is healthy still, the loop fails. -/
def Parameters.lookFirst (parameters : Parameters) (patience passes round : Nat) (spread : Spread) :
    EStateM.Result Halt Stream (Except RunFault Nat) :=
  if spread.population.someHealthy then
    match passes with
    | 0 => .error .unfinished spread.stream
    | passes + 1 =>
        match Spread.visit parameters.contactRule patience parameters.size 0 spread with
        | .error halt spread => .error halt spread.stream
        | .ok () spread =>
            let round := round + 1
            if spread.population.someHealthy && parameters.maxRounds.any (· <= round) then
              let shortfall :=
                { size := parameters.size
                  rounds := round
                  infected := spread.population.flags.count true }
              .ok (.error (.capped shortfall)) spread.stream
            else
              parameters.lookFirst patience passes round spread
  else
    .ok (.ok round) spread.stream

def Course.answer (course : Course) : EStateM.Result Halt Stream (Except RunFault Nat) :=
  match course.ending with
  | .converged rounds => .ok (.ok rounds) course.stream
  | .capped shortfall => .ok (.error (.capped shortfall)) course.stream
  | .halted halt => .error halt course.stream

theorem simulate_eq_answer {parameters : Parameters} {fresh : Epidemic}
    (created : Epidemic.start parameters = .ok fresh) (patience : Nat) (stream : Stream) :
    simulate patience parameters stream = (fresh.run patience stream).answer := by
  simp only [simulate, created]
  rfl

namespace Epidemic

theorem isCapped_eq {parameters : Parameters} {epidemic : Epidemic} (origin : epidemic.Of parameters) :
    epidemic.isCapped = parameters.maxRounds.any (· <= epidemic.round) := by
  rw [isCapped, origin.parametersEq]
  cases parameters.maxRounds <;> rfl

theorem pass_eq_visit {parameters : Parameters} {epidemic : Epidemic} (framed : epidemic.Framed parameters)
    (patience : Nat) (stream : Stream) :
    pass patience (epidemic, stream) =
      match Spread.visit parameters.contactRule patience parameters.size 0
          { population := epidemic.population, stream } with
      | .ok () { population, stream } =>
          .ok () ({ epidemic with population, round := epidemic.round + 1 }, stream)
      | .error halt { population, stream } => .error halt ({ epidemic with population }, stream) := by
  rw [← framed.contactRule_eq, ← framed.nodes]
  exact pass_eq epidemic patience stream

theorem lookFirst_full {parameters : Parameters} {spread : Spread}
    (full : spread.population.someHealthy = false) (patience passes round : Nat) :
    parameters.lookFirst patience passes round spread = .ok (.ok round) spread.stream := by
  unfold Parameters.lookFirst
  rw [full]
  rfl

theorem answer_runFrom {parameters : Parameters} (valid : parameters.validate = .ok ()) {epidemic : Epidemic}
    (origin : epidemic.Of parameters) (healthy : epidemic.population.allInfected = false)
    (patience passes : Nat) (events : List RoundEvent) (stream : Stream) :
    (runFrom patience passes events epidemic stream).answer =
      parameters.lookFirst patience passes epidemic.round { population := epidemic.population, stream } := by
  -- Behind a pass both look for a healthy node: the run at once, the other loop when it begins again.
  induction passes generalizing epidemic events stream with
  | zero =>
      rw [Parameters.lookFirst, Population.someHealthy_eq origin.sound, healthy]
      rfl
  | succ passes ih =>
      rw [Parameters.lookFirst, Population.someHealthy_eq origin.sound, healthy]
      have passed := pass_eq_visit origin.framed patience stream
      cases visited : Spread.visit parameters.contactRule patience parameters.size 0
          { population := epidemic.population, stream } with
      | error halt spread =>
          rw [visited] at passed
          simp only [runFrom, runOver, passed]
          rfl
      | ok _ spread =>
          rw [visited] at passed
          have later := origin.passed (pass_ok (origin.ready valid) passed)
          have looks := Population.someHealthy_eq later.sound
          have capped := isCapped_eq later
          simp only at looks capped
          cases full : spread.population.allInfected with
          | true =>
              rw [full] at looks
              rw [runFrom_stops passed (.inl full)]
              simp [settle, full, looks, lookFirst_full looks, Course.answer]
          | false =>
              rw [full] at looks
              cases limit : parameters.maxRounds.any (· <= epidemic.round + 1) with
              | true =>
                  rw [limit] at capped
                  rw [runFrom_stops passed (.inr capped)]
                  have counted := later.sound.counted
                  simp only at counted
                  simp [settle, full, looks, limit, shortfall, counted, origin.parametersEq, Course.answer]
              | false =>
                  rw [limit] at capped
                  rw [runFrom_goesOn passed (by simp [Stops, full, capped])]
                  simpa [looks, limit] using ih later full _ spread.stream

/-! A single node -/

theorem eq_fresh_of_single {population : Population} (sound : population.Sound) (single : population.size = 1) :
    population = .fresh 1 := by
  obtain ⟨flags, infected⟩ := population
  obtain ⟨flag, rfl⟩ := Array.size_eq_one_iff.1 single
  obtain rfl : flag = true := by simpa [NodeId.origin] using sound.origin
  obtain rfl : infected = 1 := by simpa using sound.counted
  rfl

theorem visit_impatient {rule : ContactRule} (peers : rule.peers ≠ 0) {count index : Nat} {spread next : Spread}
    (visited : Spread.visit rule 0 (count + 1) index spread = .ok () next) : False := by
  obtain ⟨_, _, step, _⟩ := bind_eq_ok_iff.1 visited
  obtain ⟨fewer, more⟩ := Nat.exists_eq_add_one_of_ne_zero peers
  have undrawn (before : Stream) : ∀ index after, rule.dial.draw 0 before ≠ .ok index after := by
    intro index after drawn
    rw [Dial.draw] at drawn
    split at drawn <;> cases drawn
  simp only [Spread.nodeStep] at step
  split at step
  next => cases step
  next drawn =>
    obtain ⟨_, _, drawnPeers, _⟩ := bind_eq_ok_iff.1 drawn
    rw [more] at drawnPeers
    obtain ⟨_, _, first, _⟩ := bind_eq_ok_iff.1 drawnPeers
    exact undrawn _ _ _ first

theorem answer_runFrom_single {parameters : Parameters} (valid : parameters.validate = .ok ())
    (single : parameters.size = 1) {epidemic : Epidemic} (origin : epidemic.Of parameters) (patience : Nat)
    (stream : Stream) (result : Except RunFault Nat) (rest : Stream) :
    (runFrom patience patience [] epidemic stream).answer = .ok result rest ↔
      result = .ok (epidemic.round + 1) ∧
        Spread.visit parameters.contactRule patience 1 0 { population := .fresh 1, stream } =
          .ok () { population := .fresh 1, stream := rest } := by
  have whole := eq_fresh_of_single origin.sound (origin.size.trans single)
  have passed := pass_eq_visit origin.framed patience stream
  rw [single, whole] at passed
  cases visited : Spread.visit parameters.contactRule patience 1 0 { population := .fresh 1, stream } with
  | error halt spread =>
      rw [visited] at passed
      cases patience <;> simp [runFrom, runOver, passed, Course.answer]
  | ok _ spread =>
      rw [visited] at passed
      cases patience with
      | zero =>
          have peers : parameters.contactRule.peers ≠ 0 := (parameters.validate_eq_ok_iff.1 valid).2.2.1
          exact (visit_impatient peers visited).elim
      | succ patience =>
          have later := origin.passed (pass_ok (origin.ready valid) passed)
          have same := eq_fresh_of_single later.sound (later.size.trans single)
          simp only at same
          obtain ⟨population, left⟩ := spread
          obtain rfl : population = .fresh 1 := same
          have full : (Population.fresh 1).allInfected = true := rfl
          rw [runFrom_stops passed (.inl full)]
          simp [settle, full, Course.answer, eq_comm]

end Epidemic

/-- For several nodes a simulation is the loop that looks before each pass: it gives the same result or fault, over
the same words of the stream. For a single node that loop returns at once, and a simulation that returns has made
one pass over the node and reports two rounds, whatever the cap. -/
theorem simulate_lookFirst {parameters : Parameters} (valid : parameters.validate = .ok ()) (patience : Nat)
    (stream : Stream) :
    (2 ≤ parameters.size →
      simulate patience parameters stream =
        parameters.lookFirst patience patience 1 { population := .fresh parameters.size, stream }) ∧
    (parameters.size = 1 →
      parameters.lookFirst patience patience 1 { population := .fresh 1, stream } = .ok (.ok 1) stream ∧
      ∀ result rest, simulate patience parameters stream = .ok result rest ↔
        result = .ok 2 ∧
          Spread.visit parameters.contactRule patience 1 0 { population := .fresh 1, stream } =
            .ok () { population := .fresh 1, stream := rest }) := by
  obtain ⟨fresh, created, origin, first, unsettled⟩ := Epidemic.start_of valid
  have begun : fresh.population = .fresh parameters.size := by
    rw [Epidemic.start, valid] at created
    cases created
    rfl
  rw [simulate_eq_answer created, Epidemic.run_eq_runFrom unsettled]
  constructor
  next =>
    intro several
    have healthy : fresh.population.allInfected = false := begun ▸ Population.fresh_healthy several
    rw [Epidemic.answer_runFrom valid origin healthy, first, begun]
    rfl
  next =>
    intro single
    have whole : (Population.fresh 1).someHealthy = false := by decide
    refine ⟨Epidemic.lookFirst_full whole patience patience 1, fun result rest => ?_⟩
    rw [Epidemic.answer_runFrom_single valid single origin, first]
    rfl

/-- More seeds than a node has an index for, and a cap that the counter has passed before the first pass ends. -/
def loneNode : Parameters :=
  { size := 1
    peers := 2
    policy := .seedBiased 4294967300 { bits := 0x3fe0000000000000 }
    maxRounds := some 0 }

/-- Four nodes fall short at a cap of three in both loops; the lone node reports two rounds behind its one pass. -/
theorem onePeer_lookFirst :
    let threeRounds := Epidemic.onePeer.withCap (some 3)
    threeRounds.lookFirst 40 40 1 { population := .fresh 4, stream := .ofSeed 1 } =
        .ok (.error (.capped { size := 4, rounds := 3, infected := 3 })) (Stream.skip 18 (.ofSeed 1)) ∧
      simulate 40 threeRounds (.ofSeed 1) =
        .ok (.error (.capped { size := 4, rounds := 3, infected := 3 })) (Stream.skip 18 (.ofSeed 1)) ∧
      loneNode.validate = .ok () ∧
      simulate 40 loneNode (.ofSeed 1) = .ok (.ok 2) (Stream.skip 5 (.ofSeed 1)) ∧
      Spread.visit loneNode.contactRule 40 1 0 { population := .fresh 1, stream := .ofSeed 1 } =
        .ok () { population := .fresh 1, stream := Stream.skip 5 (.ofSeed 1) } := by
  intro threeRounds
  have accepted : threeRounds.validate = .ok () := rfl
  have several := (simulate_lookFirst accepted 40 (.ofSeed 1)).1 (by decide)
  have short : threeRounds.lookFirst 40 40 1 { population := .fresh 4, stream := .ofSeed 1 } =
      .ok (.error (.capped { size := 4, rounds := 3, infected := 3 })) (Stream.skip 18 (.ofSeed 1)) := by
    decide +kernel
  have acceptedToo : loneNode.validate = .ok () := by decide
  have ran : simulate 40 loneNode (.ofSeed 1) = .ok (.ok 2) (Stream.skip 5 (.ofSeed 1)) := by decide +kernel
  have single := (simulate_lookFirst acceptedToo 40 (.ofSeed 1)).2 rfl
  exact ⟨short, several.trans short, acceptedToo, ran, ((single.2 _ _).1 ran).2⟩

end Rumour

import Rumour.Proofs.Epidemic.Faults
import Rumour.Proofs.Epidemic.Leads

set_option autoImplicit false

/-!
Writes to an epidemic. Its parameters, its counter and its population can be written between passes and runs; the sizes
of its start cannot. While any population that is put in has as many nodes as the start, no write leads a pass out of
them. What a write can bring about is a coin that has no bias, or one that falls where the start left no seeds; and a
run that waits in vain for a node that no pass comes to.
-/

namespace Rumour

open Rumour.Random Rumour.Binary

/-- A population that calls to a new one lead to. -/
def Population.Reached (population : Population) : Prop :=
  ∃ size start, ofSize size = .ok start ∧ ∃ calls, start.after calls = population

theorem Population.Reached.sound {population : Population} (reached : population.Reached) : population.Sound := by
  obtain ⟨size, start, created, calls, rfl⟩ := reached
  obtain ⟨positive, _, rfl⟩ := (ofSize_eq_ok_iff size start).1 created
  have begun := fresh_sound size positive
  exact (after_grown begun.grown calls).sound begun

namespace Epidemic

def holding (epidemic : Epidemic) (population : Population) : Epidemic :=
  { epidemic with population }

section

variable (epidemic : Epidemic) (population : Population)

@[simp] theorem holding_population : (epidemic.holding population).population = population := rfl

@[simp] theorem holding_contactRule : (epidemic.holding population).contactRule = epidemic.contactRule := rfl

end

/-- What the holder of an epidemic can do with it, on any stream. -/
inductive Act where
  | setParameters (parameters : Parameters)
  | setRound (round : Nat)
  | setPopulation (population : Population)
  | callPopulation (call : Population.Call)
  | pass (patience : Nat) (stream : Stream)
  | run (patience : Nat) (stream : Stream)

/-- The epidemic that an act leaves, also where it meets a fault. -/
def Act.leave (act : Act) (epidemic : Epidemic) : Epidemic :=
  match act with
  | .setParameters parameters => { epidemic with parameters }
  | .setRound round => { epidemic with round }
  | .setPopulation population => epidemic.holding population
  | .callPopulation call => epidemic.holding (call.leave epidemic.population)
  | .pass patience stream => (stateOf (Epidemic.pass patience (epidemic, stream))).1
  | .run patience stream => (epidemic.run patience stream).epidemic

def after (epidemic : Epidemic) : List Act -> Epidemic
  | [] => epidemic
  | act :: rest => (act.leave epidemic).after rest

/-- A population that is put in has been reached, and has at least as many nodes as a size. -/
def Act.Fits (size : Nat) : Act -> Prop
  | .setPopulation population => population.Reached ∧ size ≤ population.size
  | _ => True

def Act.SparesPopulation : Act -> Prop
  | .setPopulation _ => False
  | .callPopulation _ => False
  | _ => True

theorem Act.SparesPopulation.fits {act : Act} (spares : act.SparesPopulation) (size : Nat) : act.Fits size := by
  cases act <;> trivial

/-! Passes and runs of any epidemic -/

section

variable {epidemic left : Epidemic} {patience : Nat} {stream rest : Stream} {halt : Halt}

theorem pass_visits (epidemic : Epidemic) (patience : Nat) (stream : Stream) :
    let visited := Spread.visit epidemic.contactRule patience epidemic.nodeCount 0
      { population := epidemic.population, stream }
    let passed := pass patience (epidemic, stream)
    causeOf passed = causeOf visited ∧ (stateOf passed).1.population = (stateOf visited).population ∧
      (stateOf passed).2 = (stateOf visited).stream := by
  rw [pass_eq]
  cases Spread.visit epidemic.contactRule patience epidemic.nodeCount 0
    { population := epidemic.population, stream } <;> exact ⟨rfl, rfl, rfl⟩

/-- All else stays, but that the counter grows where nothing stops the pass. -/
theorem pass_keeps (epidemic : Epidemic) (patience : Nat) (stream : Stream) :
    let passed := pass patience (epidemic, stream)
    (stateOf passed).1 =
      { epidemic with
        population := (stateOf passed).1.population
        round := if (causeOf passed).isNone then epidemic.round + 1 else epidemic.round } := by
  rw [pass_eq]
  cases Spread.visit epidemic.contactRule patience epidemic.nodeCount 0
    { population := epidemic.population, stream } <;> rfl

theorem pass_eq_error_iff :
    pass patience (epidemic, stream) = .error halt (left, rest) ↔
      Spread.visit epidemic.contactRule patience epidemic.nodeCount 0 { population := epidemic.population, stream } =
          .error halt { population := left.population, stream := rest } ∧
        left = epidemic.holding left.population := by
  rw [pass_eq]
  cases Spread.visit epidemic.contactRule patience epidemic.nodeCount 0
      { population := epidemic.population, stream } with
  | ok _ spread =>
      constructor
      · intro impossible
        cases impossible
      · rintro ⟨impossible, _⟩
        cases impossible
  | error early spread =>
      constructor
      · intro same
        cases same
        exact ⟨rfl, rfl⟩
      · rintro ⟨same, kept⟩
        cases same
        rw [kept]
        rfl

theorem pass_grown (sound : epidemic.population.Sound) (patience : Nat) (stream : Stream) :
    epidemic.population.Grown (stateOf (pass patience (epidemic, stream))).1.population := by
  let begun : Spread := { population := epidemic.population, stream }
  have counted : begun.population.infected = begun.population.flags.count true := sound.counted
  rw [(pass_visits epidemic patience stream).2.1]
  exact Spread.stateOf_visit_grown _ patience _ 0 counted

/-- What passes keep, a run keeps until it converges; then all nodes are infected in a state that keeps it. -/
theorem runFrom_keeps (kept : Epidemic -> Prop)
    (passes : ∀ epidemic stream, kept epidemic → kept (stateOf (pass patience (epidemic, stream))).1)
    (count : Nat) (events : List RoundEvent) (epidemic : Epidemic) (stream : Stream) (begun : kept epidemic) :
    let course := runFrom patience count events epidemic stream
    (kept course.epidemic ∧ ∀ rounds, course.ending ≠ .converged rounds) ∨
      ∃ last, kept last ∧ last.population.allInfected = true ∧ course.epidemic = { last with converged := true } := by
  -- Between passes a run leaves the epidemic alone; it marks it once, behind the pass that infects the last node.
  induction count generalizing events epidemic stream with
  | zero => exact .inl ⟨begun, by simp [runFrom, runOver]⟩
  | succ count ih =>
      have passed := passes epidemic stream begun
      unfold runFrom runOver
      cases ran : pass patience (epidemic, stream) with
      | error halt left =>
          rw [ran] at passed
          exact .inl ⟨passed, by simp⟩
      | ok _ next =>
          rw [ran] at passed
          simp only
          split
          next full => exact .inr ⟨next.1, passed, full, rfl⟩
          next =>
            split
            next => exact .inl ⟨passed, by simp⟩
            next => exact ih _ next.1 next.2 passed

end

/-! Epidemics under writes -/

/-- The sizes are those of a start, and the population has the nodes that they stand for. -/
structure Built (parameters : Parameters) (epidemic : Epidemic) : Prop where
  nodes : epidemic.nodeCount = parameters.size
  seeds : epidemic.seedCount = min parameters.policy.seedCount parameters.size
  covers : parameters.size ≤ epidemic.population.size
  sound : epidemic.population.Sound

section

variable {parameters : Parameters} {epidemic : Epidemic}

theorem Of.built (origin : epidemic.Of parameters) : epidemic.Built parameters :=
  { nodes := origin.nodes
    seeds := origin.seeds
    covers := Nat.le_of_eq origin.size.symm
    sound := origin.sound }

namespace Built

theorem holding (built : epidemic.Built parameters) {population : Population} (sound : population.Sound)
    (covers : parameters.size ≤ population.size) : (epidemic.holding population).Built parameters :=
  { built with covers, sound }

theorem grown (built : epidemic.Built parameters) {population : Population}
    (grown : epidemic.population.Grown population) : (epidemic.holding population).Built parameters :=
  built.holding (grown.sound built.sound) (grown.size.symm ▸ built.covers)

theorem pass (built : epidemic.Built parameters) (patience : Nat) (stream : Stream) :
    Built parameters (stateOf (Epidemic.pass patience (epidemic, stream))).1 := by
  have after := built.grown (pass_grown built.sound patience stream)
  rw [pass_keeps]
  exact { after with }

theorem run (built : epidemic.Built parameters) (patience : Nat) (stream : Stream) :
    Built parameters (epidemic.run patience stream).epidemic := by
  cases settled : epidemic.converged with
  | true =>
      rw [run_of_converged settled]
      exact built
  | false =>
      rw [run_eq_runFrom settled]
      have passes : ∀ epidemic stream, Built parameters epidemic →
          Built parameters (stateOf (Epidemic.pass patience (epidemic, stream))).1 :=
        fun _ stream built => built.pass patience stream
      rcases runFrom_keeps (Built parameters) passes patience [] epidemic stream built
        with ⟨kept, _⟩ | ⟨last, kept, _, same⟩
      · exact kept
      · rw [same]
        exact { kept with }

theorem leave (built : epidemic.Built parameters) {act : Act} (fits : act.Fits parameters.size) :
    Built parameters (act.leave epidemic) := by
  cases act with
  | setParameters written => exact { built with }
  | setRound round => exact { built with }
  | setPopulation population => exact built.holding fits.1.sound fits.2
  | callPopulation call => exact built.grown (Population.leave_grown _ call built.sound.grown)
  | pass patience stream => exact built.pass patience stream
  | run patience stream => exact built.run patience stream

theorem after (built : epidemic.Built parameters) {acts : List Act} (fits : ∀ act ∈ acts, act.Fits parameters.size) :
    Built parameters (epidemic.after acts) := by
  induction acts generalizing epidemic with
  | nil => exact built
  | cons act rest ih =>
      obtain ⟨head, tail⟩ := List.forall_mem_cons.1 fits
      exact ih (built.leave head) tail

theorem bounded (built : epidemic.Built parameters) (valid : parameters.validate = .ok ()) :
    epidemic.contactRule.Bounded parameters.size := by
  have someNodes := (parameters.validate_eq_ok_iff.1 valid).1
  have seeds := built.seeds
  -- What is written decides whether there is a seed contact, but both dials are sized by the start.
  constructor
  · simpa [contactRule, ContactRule.ofPolicy, Dial.below, Dial.ofSize, built.nodes] using Nat.pos_of_ne_zero someNodes
  · simp [contactRule, ContactRule.ofPolicy, Dial.below, Dial.ofSize, built.nodes]
  · intro contact chosen
    cases policy : epidemic.parameters.policy with
    | uniform => simp [contactRule, ContactRule.ofPolicy, policy] at chosen
    | seedBiased count bias =>
        simp only [contactRule, ContactRule.ofPolicy, policy, Option.some.injEq] at chosen
        simp only [← chosen, Dial.below, Dial.ofSize]
        omega

theorem seedCount_eq_zero_iff (built : epidemic.Built parameters) (valid : parameters.validate = .ok ()) :
    epidemic.seedCount = 0 ↔ parameters.policy = .uniform := by
  obtain ⟨someNodes, _, _, checked⟩ := parameters.validate_eq_ok_iff.1 valid
  rw [built.seeds]
  cases policy : parameters.policy with
  | uniform => simp [Policy.seedCount]
  | seedBiased count bias =>
      -- The check at the start has asked for a seed, and a clipped number of seeds is not none.
      rw [policy] at checked
      have someSeeds := (Parameters.checkPolicy_seedBiased checked).1
      have least : min count parameters.size ≠ 0 := by omega
      simpa [Policy.seedCount] using least

end Built

end

/-! Faults under writes -/

/-- Why a node cannot draw its contacts: its coin has no bias, or falls where the start left no seeds. -/
inductive Stuck (parameters : Parameters) (bias : Binary64) (before : Stream) : Fault -> Stream -> Prop where
  | noCoin (missing : bias.isNaN = true) : Stuck parameters bias before .invalidProbability before
  | noSeeds {rest : Stream} (unseeded : parameters.policy = .uniform)
      (falls : Coin.flip? (Coin.ofBias bias) before = .ok true rest) :
      Stuck parameters bias before .emptyRange rest

section

variable {parameters : Parameters} {epidemic left : Epidemic} {patience : Nat} {stream rest : Stream} {fault : Fault}

theorem drawContacts_stuck_iff (built : epidemic.Built parameters) (valid : parameters.validate = .ok ()) :
    epidemic.contactRule.drawContacts patience stream = .error (.fault fault) rest ↔
      ∃ seeds bias before, epidemic.parameters.policy = .seedBiased seeds bias ∧
        epidemic.contactRule.Tosses patience stream before ∧ Stuck parameters bias before fault rest := by
  rw [ContactRule.drawContacts_fault_iff (built.bounded valid).peersPos]
  have unseeded := built.seedCount_eq_zero_iff valid
  constructor
  next =>
    rintro ⟨contact, before, chosen, tossed, why⟩
    cases policy : epidemic.parameters.policy with
    | uniform => simp [contactRule, ContactRule.ofPolicy, policy] at chosen
    | seedBiased seeds bias =>
        simp only [contactRule, ContactRule.ofPolicy, policy, Option.some.injEq] at chosen
        subst chosen
        refine ⟨seeds, bias, before, rfl, tossed, ?_⟩
        rcases why with ⟨noCoin, rfl, rfl⟩ | ⟨empty, rfl, falls⟩
        · exact .noCoin ((Coin.ofBias_eq_none_iff bias).1 noCoin)
        · exact .noSeeds (unseeded.1 empty) falls
  next =>
    rintro ⟨seeds, bias, before, policy, tossed, why⟩
    have chosen : epidemic.contactRule.seedContact =
        some { coin := Coin.ofBias bias, dial := Dial.below epidemic.seedCount } := by
      simp only [contactRule, ContactRule.ofPolicy, policy]
    refine ⟨_, before, chosen, tossed, ?_⟩
    cases why with
    | noCoin missing => exact .inl ⟨(Coin.ofBias_eq_none_iff bias).2 missing, rfl, rfl⟩
    | noSeeds uniform falls => exact .inr ⟨unseeded.2 uniform, rfl, falls⟩

/-- A pass meets a fault at a node whose coin leaves it stuck, behind the steps of the nodes before. -/
theorem pass_fault_iff (built : epidemic.Built parameters) (valid : parameters.validate = .ok ()) :
    pass patience (epidemic, stream) = .error (.fault fault) (left, rest) ↔
      ∃ index < parameters.size, ∃ middle,
        Spread.visit epidemic.contactRule patience index 0 { population := epidemic.population, stream } =
            .ok () middle ∧
          left = epidemic.holding middle.population ∧
          ∃ seeds bias before, epidemic.parameters.policy = .seedBiased seeds bias ∧
            epidemic.contactRule.Tosses patience middle.stream before ∧ Stuck parameters bias before fault rest := by
  have covers := built.covers
  have bounded := built.bounded valid
  -- The visits are looked at over the whole population, which has at least the nodes of the start.
  have wide : epidemic.contactRule.Bounded epidemic.population.size :=
    { bounded with
      peersLe := Nat.le_trans bounded.peersLe covers
      seedsLe := fun contact chosen => Nat.le_trans (bounded.seedsLe contact chosen) covers }
  rw [pass_eq_error_iff, Spread.visit_eq_error_iff wide (by simp only [built.nodes]; omega), built.nodes]
  constructor
  next =>
    rintro ⟨⟨index, within, middle, visited, stuck, same⟩, kept⟩
    simp only at same
    exact ⟨index, within, middle, visited, same ▸ kept, (drawContacts_stuck_iff built valid).1 stuck⟩
  next =>
    rintro ⟨index, within, middle, visited, rfl, stuck⟩
    exact ⟨⟨index, within, middle, visited, (drawContacts_stuck_iff built valid).2 stuck, rfl⟩, rfl⟩

end

/-! Nodes that no pass comes to -/

section

variable {parameters : Parameters} {epidemic : Epidemic}

theorem pass_behind (built : epidemic.Built parameters) (valid : parameters.validate = .ok ()) (patience : Nat)
    (stream : Stream) {index : Nat} (beyond : parameters.size ≤ index) :
    (stateOf (pass patience (epidemic, stream))).1.population.flags[index]? = epidemic.population.flags[index]? := by
  rw [(pass_visits epidemic patience stream).2.1, built.nodes]
  exact Spread.getElem?_visit_behind stream (built.bounded valid) built.sound.counted built.covers beyond

theorem pass_settled (built : epidemic.Built parameters) (valid : parameters.validate = .ok ()) (patience : Nat)
    (stream : Stream) :
    let passed := pass patience (epidemic, stream)
    let visited := Spread.visit epidemic.contactRule patience parameters.size 0
      { population := epidemic.population.first parameters.size, stream }
    causeOf passed = causeOf visited ∧ (stateOf passed).2 = (stateOf visited).stream ∧
      ∀ index, index < parameters.size →
        (stateOf passed).1.population.flags[index]? = (stateOf visited).population.flags[index]? := by
  have bounded := built.bounded valid
  have counted := built.sound.counted
  obtain ⟨cause, population, left⟩ := pass_visits epidemic patience stream
  rw [built.nodes] at cause population left
  -- All three can be read off the visits to the first nodes, with the others out of the way.
  have first : Spread.visit _ patience _ 0 _ = _ := Spread.visit_first stream bounded counted built.covers
  refine ⟨?_, ?_, fun index inside => ?_⟩
  · rw [cause, first, causeOf_seenAs]
  · rw [left, first, stateOf_seenAs]
    rfl
  · rw [population]
    exact Spread.getElem?_visit_front stream bounded counted built.covers inside

/-- Over populations that are alike up to the size of the start, passes are alike. -/
theorem pass_alike (built : epidemic.Built parameters) (valid : parameters.validate = .ok ()) (patience : Nat)
    (stream : Stream) {other : Population} (sound : other.Sound) (covers : parameters.size ≤ other.size)
    (alike : ∀ index, index < parameters.size → other.flags[index]? = epidemic.population.flags[index]?) :
    let passed := pass patience (epidemic, stream)
    let passedToo := pass patience (epidemic.holding other, stream)
    causeOf passedToo = causeOf passed ∧ (stateOf passedToo).2 = (stateOf passed).2 ∧
      (stateOf passedToo).1 = (stateOf passed).1.holding (stateOf passedToo).1.population ∧
      ∀ index, index < parameters.size →
        (stateOf passedToo).1.population.flags[index]? = (stateOf passed).1.population.flags[index]? := by
  have same : other.first parameters.size = epidemic.population.first parameters.size :=
    Population.first_congr covers built.covers alike
  obtain ⟨cause, left, flags⟩ := pass_settled built valid patience stream
  obtain ⟨causeToo, leftToo, flagsToo⟩ := pass_settled (built.holding sound covers) valid patience stream
  simp only [holding_population, holding_contactRule, same] at causeToo leftToo flagsToo
  refine ⟨causeToo.trans cause.symm, leftToo.trans left.symm, ?_, fun index inside => ?_⟩
  · rw [pass_keeps (epidemic.holding other), pass_keeps epidemic, causeToo, cause]
    rfl
  · rw [flagsToo index inside, flags index inside]

/-- A healthy node lies behind those that passes come to. -/
structure Waits (parameters : Parameters) (node : NodeId) (epidemic : Epidemic) : Prop where
  built : epidemic.Built parameters
  beyond : parameters.size ≤ node.index
  healthy : epidemic.population.isInfected node = .ok false

namespace Waits

variable {node : NodeId}

theorem pass (waits : epidemic.Waits parameters node) (valid : parameters.validate = .ok ()) (patience : Nat)
    (stream : Stream) : Waits parameters node (stateOf (Epidemic.pass patience (epidemic, stream))).1 := by
  have healthy := waits.healthy
  rw [Population.isInfected_eq_ok_iff] at healthy
  refine ⟨waits.built.pass patience stream, waits.beyond, ?_⟩
  rw [Population.isInfected_eq_ok_iff, pass_behind waits.built valid patience stream waits.beyond]
  exact healthy

theorem run (waits : epidemic.Waits parameters node) (valid : parameters.validate = .ok ()) (patience : Nat)
    (stream : Stream) :
    let course := epidemic.run patience stream
    Waits parameters node course.epidemic ∧ course.epidemic.converged = epidemic.converged ∧
      (epidemic.converged = false → ∀ rounds, course.ending ≠ .converged rounds) := by
  cases settled : epidemic.converged with
  | true =>
      rw [run_of_converged settled]
      exact ⟨waits, settled, by simp⟩
  | false =>
      rw [run_eq_runFrom settled]
      let kept (epidemic : Epidemic) : Prop := Waits parameters node epidemic ∧ epidemic.converged = false
      have passes : ∀ epidemic stream, kept epidemic → kept (stateOf (Epidemic.pass patience (epidemic, stream))).1 := by
        rintro epidemic stream ⟨waits, unsettled⟩
        refine ⟨waits.pass valid patience stream, ?_⟩
        rw [pass_keeps]
        exact unsettled
      rcases runFrom_keeps kept passes patience [] epidemic stream ⟨waits, settled⟩
        with ⟨⟨stays, unsettled⟩, ends⟩ | ⟨last, ⟨stays, _⟩, full, _⟩
      · exact ⟨stays, unsettled, fun _ => ends⟩
      -- With the node healthy no pass has left a state in which a run converges.
      · exact absurd full (stays.built.sound.not_allInfected stays.healthy)

theorem leave (waits : epidemic.Waits parameters node) (valid : parameters.validate = .ok ()) {act : Act}
    (spares : act.SparesPopulation) :
    Waits parameters node (act.leave epidemic) ∧ (act.leave epidemic).converged = epidemic.converged := by
  have built := waits.built.leave (spares.fits parameters.size)
  cases act with
  | setParameters written => exact ⟨⟨built, waits.beyond, waits.healthy⟩, rfl⟩
  | setRound round => exact ⟨⟨built, waits.beyond, waits.healthy⟩, rfl⟩
  | setPopulation population => exact spares.elim
  | callPopulation call => exact spares.elim
  | pass patience stream =>
      refine ⟨waits.pass valid patience stream, ?_⟩
      rw [Act.leave, pass_keeps]
  | run patience stream =>
      obtain ⟨stays, settled, _⟩ := waits.run valid patience stream
      exact ⟨stays, settled⟩

theorem after (waits : epidemic.Waits parameters node) (valid : parameters.validate = .ok ()) {acts : List Act}
    (spare : ∀ act ∈ acts, act.SparesPopulation) :
    Waits parameters node (epidemic.after acts) ∧ (epidemic.after acts).converged = epidemic.converged := by
  induction acts generalizing epidemic with
  | nil => exact ⟨waits, rfl⟩
  | cons act rest ih =>
      obtain ⟨head, tail⟩ := List.forall_mem_cons.1 spare
      obtain ⟨next, settled⟩ := waits.leave valid head
      obtain ⟨last, settledToo⟩ := ih next tail
      exact ⟨last, settledToo.trans settled⟩

end Waits

end

/-- Whatever is done with an epidemic, as long as a population that is put in has the nodes of the start: a pass sees
and changes only the flags below the size of the start. It meets a fault only under a bias that is not a number, or
where a coin falls and the start left no seeds. Stopped, it has not counted, and has cleared no flag. And while the
population is not written again, an epidemic that was given a healthy node behind the others never converges. -/
theorem after_within {parameters : Parameters} {fresh epidemic : Epidemic} (created : start parameters = .ok fresh)
    {acts : List Act} (fits : ∀ act ∈ acts, act.Fits parameters.size) (reached : fresh.after acts = epidemic) :
    (∀ patience stream,
      let passed := pass patience (epidemic, stream)
      (∀ index, parameters.size ≤ index →
        (stateOf passed).1.population.flags[index]? = epidemic.population.flags[index]?) ∧
      ∀ other : Population, other.Reached → parameters.size ≤ other.size →
        (∀ index, index < parameters.size → other.flags[index]? = epidemic.population.flags[index]?) →
        let passedToo := pass patience (epidemic.holding other, stream)
        causeOf passedToo = causeOf passed ∧ (stateOf passedToo).2 = (stateOf passed).2 ∧
          (stateOf passedToo).1 = (stateOf passed).1.holding (stateOf passedToo).1.population ∧
          ∀ index, index < parameters.size →
            (stateOf passedToo).1.population.flags[index]? = (stateOf passed).1.population.flags[index]?) ∧
    (∀ patience stream fault left rest,
      pass patience (epidemic, stream) = .error (.fault fault) (left, rest) ↔
        ∃ index < parameters.size, ∃ middle,
          Spread.visit epidemic.contactRule patience index 0 { population := epidemic.population, stream } =
              .ok () middle ∧
            left = epidemic.holding middle.population ∧
            ∃ seeds bias before, epidemic.parameters.policy = .seedBiased seeds bias ∧
              epidemic.contactRule.Tosses patience middle.stream before ∧
              Stuck parameters bias before fault rest) ∧
    (∀ patience stream halt left rest, pass patience (epidemic, stream) = .error halt (left, rest) →
      left.round = epidemic.round ∧
        (∀ node, epidemic.population.Infected node → left.population.Infected node) ∧
        left.population.infected = left.population.flags.count true) ∧
    ∀ (population : Population) node later, population.Reached → parameters.size ≤ node.index →
      population.isInfected node = .ok false → (∀ act ∈ later, act.SparesPopulation) →
      let latest := (epidemic.holding population).after later
      latest.converged = epidemic.converged ∧
        (epidemic.converged = false →
          ∀ patience stream rounds, (latest.run patience stream).ending ≠ .converged rounds) := by
  obtain ⟨valid, origin⟩ := start_eq_ok created
  subst reached
  have built := origin.built.after fits
  refine ⟨fun patience stream => ⟨?_, ?_⟩, ?_, ?_, ?_⟩
  next => exact fun index beyond => pass_behind built valid patience stream beyond
  next => exact fun other known covers alike => pass_alike built valid patience stream known.sound covers alike
  next => exact fun patience stream fault left rest => pass_fault_iff built valid
  next =>
    intro patience stream halt left rest stopped
    have grown := pass_grown built.sound patience stream
    rw [stopped] at grown
    have kept := (pass_eq_error_iff.1 stopped).2
    refine ⟨by rw [kept]; rfl, fun node infected => ?_, grown.counted⟩
    rw [Population.infected_iff] at infected ⊢
    exact grown.kept node.index infected
  next =>
    intro population node later known beyond healthy spare
    have inside : node.index < population.size := by
      obtain ⟨inside, _⟩ := Array.getElem?_eq_some_iff.1 ((Population.isInfected_eq_ok_iff _ _ _).1 healthy)
      exact inside
    have waits : Waits parameters node ((fresh.after acts).holding population) :=
      ⟨built.holding known.sound (Nat.le_trans beyond (Nat.le_of_lt inside)), beyond, healthy⟩
    obtain ⟨stays, settled⟩ := waits.after valid spare
    refine ⟨settled, fun unsettled patience stream => ?_⟩
    exact (stays.run valid patience stream).2.2 (settled.trans unsettled)

def twoNodes : Parameters :=
  { size := 2, peers := 1, policy := .uniform, maxRounds := none }

def evenBias : Policy :=
  .seedBiased 5 { bits := 0x3fe0000000000000 }

/-- Behind a pass the two nodes are given a third one, and coins over seeds that they do not have. -/
def rewrites : List Act :=
  [.pass 40 (.ofSeed 1), .setPopulation (.fresh 3),
    .setParameters { size := 9, peers := 1, policy := evenBias, maxRounds := none }, .setRound 7]

def rewritten : Epidemic :=
  { parameters := { size := 9, peers := 1, policy := evenBias, maxRounds := none }
    population := .fresh 3
    round := 7
    nodeCount := 2
    seedCount := 0
    converged := false }

/-- The coin of the second node falls. The first has made its step by then, which is counted; the round is not. With
a fourth node the pass would stop as well, and the third is infected in no run. -/
theorem rewritten_within :
    let fresh : Epidemic :=
      { parameters := twoNodes
        population := .fresh 2
        round := firstRound
        nodeCount := 2
        seedCount := 0
        converged := false }
    let stopped := rewritten.holding { flags := #[true, true, false], infected := 2 }
    start twoNodes = .ok fresh ∧ (∀ act ∈ rewrites, act.Fits 2) ∧ fresh.after rewrites = rewritten ∧
      pass 40 (rewritten, .ofSeed 5) = .error (.fault .emptyRange) (stopped, Stream.skip 4 (.ofSeed 5)) ∧
      stopped.round = 7 ∧ stopped.population.flags[2]? = some false ∧
      causeOf (pass 40 (rewritten.holding (.fresh 4), .ofSeed 5)) = some (.fault .emptyRange) ∧
      ∀ later, (∀ act ∈ later, act.SparesPopulation) →
        ∀ patience stream rounds, ((rewritten.after later).run patience stream).ending ≠ .converged rounds := by
  intro fresh stopped
  have created : start twoNodes = .ok fresh := rfl
  have three : Population.Reached (.fresh 3) := ⟨3, _, rfl, [], rfl⟩
  have four : Population.Reached (.fresh 4) := ⟨4, _, rfl, [], rfl⟩
  have fits : ∀ act ∈ rewrites, act.Fits 2 := by simp [rewrites, Act.Fits, three]
  have reached : fresh.after rewrites = rewritten := by decide +kernel
  obtain ⟨within, faults, stops, waits⟩ := after_within created fits reached
  -- The first node draws a peer and throws; the second draws one too, and its coin falls.
  have faulted : pass 40 (rewritten, .ofSeed 5) =
      .error (.fault .emptyRange) (stopped, Stream.skip 4 (.ofSeed 5)) := by
    refine (faults 40 (.ofSeed 5) _ _ _).2
      ⟨1, by decide, { population := stopped.population, stream := Stream.skip 2 (.ofSeed 5) }, ?_, rfl,
        5, { bits := 0x3fe0000000000000 }, Stream.skip 3 (.ofSeed 5), rfl, ⟨[{ index := 1 }], ?_⟩, .noSeeds rfl ?_⟩
    all_goals decide +kernel
  obtain ⟨behind, alike⟩ := within 40 (.ofSeed 5)
  have third := behind 2 (by decide)
  have same := (alike (.fresh 4) four (by decide) (by decide)).1
  rw [faulted] at third same
  refine ⟨created, fits, reached, faulted, (stops _ _ _ _ _ faulted).1, third, same, fun later spare => ?_⟩
  exact (waits (.fresh 3) { index := 2 } later three (by decide) rfl spare).2 rfl

end Epidemic

end Rumour

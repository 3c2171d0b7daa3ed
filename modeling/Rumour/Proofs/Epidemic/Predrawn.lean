import Rumour.Proofs.Epidemic.Leads
import Rumour.Proofs.Population.Chains

set_option autoImplicit false

/-!
Contacts drawn beforehand. The contacts of a node come from the stream alone, so some passes over a population
are the same as drawing all lists of contacts first and then holding the meetings in the order of the nodes.
What is drawn, and the stream that is left, are the same for every population of a size.
-/

namespace Rumour

open Rumour.Random

section

variable {ε σ α : Type} {before after : σ}

/-- The answers of an action that is done a number of times, in order. -/
def answers (action : EStateM ε σ α) : Nat -> EStateM ε σ (List α)
  | 0 => pure []
  | count + 1 => do
      let one <- action
      let others <- answers action count
      pure (one :: others)

theorem answers_add (action : EStateM ε σ α) (early late : Nat) :
    answers action (early + late) = (do
      let front <- answers action early
      let back <- answers action late
      pure (front ++ back)) := by
  induction early with
  | zero => simp [answers]
  | succ early ih => simp [answers, Nat.succ_add, ih]

theorem length_answers {action : EStateM ε σ α} {count : Nat} {values : List α}
    (answered : answers action count before = .ok values after) : values.length = count := by
  induction count generalizing before values with
  | zero =>
      cases answered
      rfl
  | succ count ih =>
      obtain ⟨one, middle, _, rest⟩ := bind_eq_ok_iff.1 answered
      obtain ⟨others, last, later, shaped⟩ := bind_eq_ok_iff.1 rest
      cases shaped
      rw [List.length_cons, ih later]

theorem answers_guarantees {action : EStateM ε σ α} {right : α -> Prop} {stopped : ε -> σ -> Prop}
    (sure : Guarantees action (fun _ => True) (fun value _ => right value) stopped) (count : Nat) :
    Guarantees (answers action count) (fun _ => True) (fun values _ => ∀ value ∈ values, right value)
      stopped := by
  induction count with
  | zero => exact .pure _ fun _ _ => by simp
  | succ count ih =>
      refine .bind sure fun one => ?_
      intro state isRight
      refine Guarantees.bind ih (fun others => ?_) state trivial
      exact .pure _ fun _ rightToo => List.forall_mem_cons.2 ⟨isRight, rightToo⟩

end

/-! Lists of contacts -/

def drawNode (size patience : Nat) : EStateM Halt Stream NodeId := do
  let index <- (Dial.below size).draw patience
  pure { index }

/-- The contacts of one node: its peers among all nodes, then the coin, then on its fall one more of the
seeds, which are never more than the nodes. -/
def Parameters.drawList (parameters : Parameters) (patience : Nat) : EStateM Halt Stream (List NodeId) := do
  let peers <- answers (drawNode parameters.size patience) parameters.peers
  match parameters.policy with
  | .uniform => pure peers
  | .seedBiased seeds bias =>
      if <- Coin.flip? (Coin.ofBias bias) then
        let seed <- drawNode (min seeds parameters.size) patience
        pure (peers ++ [seed])
      else
        pure peers

def Parameters.contactRule (parameters : Parameters) : ContactRule :=
  ContactRule.ofPolicy parameters.policy parameters.peers parameters.size
    (min parameters.policy.seedCount parameters.size)

namespace ContactRule

theorem drawPeers_eq (size patience count : Nat) (drawn : List NodeId) :
    drawPeers (Dial.below size) patience count drawn = (do
      let nodes <- answers (drawNode size patience) count
      pure (nodes.reverse ++ drawn)) := by
  induction count generalizing drawn with
  | zero => simp [drawPeers, answers]
  | succ count ih => simp [drawPeers, answers, drawNode, ih]

theorem drawContacts_eq_drawList (parameters : Parameters) (patience : Nat) :
    parameters.contactRule.drawContacts patience = parameters.drawList patience := by
  unfold drawContacts Parameters.drawList Parameters.contactRule
  cases chosen : parameters.policy with
  | uniform => simp [ofPolicy, drawPeers_eq, drawSeedContact]
  | seedBiased seeds bias =>
      simp only [ofPolicy, drawPeers_eq, drawSeedContact, drawNode, Policy.seedCount, bind_assoc,
        pure_bind, List.append_nil]
      congr 1
      funext peers
      congr 1
      funext heads
      cases heads <;> simp

end ContactRule

theorem Parameters.drawList_length {parameters : Parameters} {patience : Nat} {before after : Stream}
    {contacts : List NodeId} (drawn : parameters.drawList patience before = .ok contacts after) :
    contacts.length = parameters.peers ∨
      parameters.policy.isSeeded = true ∧ contacts.length = parameters.peers + 1 := by
  obtain ⟨peers, middle, drawnPeers, rest⟩ := bind_eq_ok_iff.1 drawn
  have number := length_answers drawnPeers
  cases chosen : parameters.policy with
  | uniform =>
      rw [chosen] at rest
      cases rest
      exact .inl number
  | seedBiased seeds bias =>
      rw [chosen] at rest
      obtain ⟨heads, fallen, _, more⟩ := bind_eq_ok_iff.1 rest
      cases heads with
      | false =>
          cases more
          exact .inl number
      | true =>
          obtain ⟨seed, last, _, shaped⟩ := bind_eq_ok_iff.1 more
          cases shaped
          exact .inr ⟨rfl, by simp [number]⟩

/-! Meetings in the order of the nodes -/

theorem Population.holdAll_concat (front back : List Meeting) :
    holdAll (front ++ back) = (do
      holdAll front
      holdAll back) := by
  induction front with
  | nil => simp [holdAll]
  | cons meeting rest ih => simp [holdAll, ih]

def nodesFrom (index count : Nat) : List NodeId :=
  (List.range' index count).map NodeId.mk

theorem nodesFrom_succ (index count : Nat) :
    nodesFrom index (count + 1) = { index } :: nodesFrom (index + 1) count := by
  simp [nodesFrom, List.range'_succ]

/-- The nodes of a size in ascending order, as often as there are passes. -/
def visits (size count : Nat) : List NodeId :=
  (List.replicate count (nodesFrom 0 size)).flatten

namespace Spread

open Rumour.Population

variable {rule : ContactRule} {patience : Nat} {population : Population} {stream rest : Stream}

theorem nodeStep_of_drawn (within : rule.Within population.size) {node : NodeId}
    (inside : node.index < population.size) {contacts : List NodeId}
    (drawn : rule.drawContacts patience stream = .ok contacts rest) :
    ∃ next, Meeting.hold { node, contacts } population = .ok () next ∧ next.size = population.size ∧
      nodeStep rule patience node { population, stream } =
        .ok () { population := next, stream := rest } := by
  have below := (rule.drawContacts_guarantees patience population.size within).of_ok trivial drawn
  have members : population.Inside (Meeting.members { node, contacts }) :=
    List.forall_mem_cons.2 ⟨inside, below⟩
  obtain ⟨next, held, spreads⟩ := Meeting.hold_spreads members
  have exchanged : exchange node contacts population = .ok () next := held
  exact ⟨next, held, spreads.size, by simp only [nodeStep, drawn, exchanged]⟩

theorem visit_of_drawn {count index : Nat} {lists : List (List NodeId)}
    (within : rule.Within population.size) (inside : index + count ≤ population.size)
    (drawn : answers (rule.drawContacts patience) count stream = .ok lists rest) :
    ∃ last, holdAll (List.zipWith Meeting.mk (nodesFrom index count) lists) population = .ok () last ∧
      last.size = population.size ∧
      visit rule patience count index { population, stream } =
        .ok () { population := last, stream := rest } := by
  induction count generalizing index population stream lists with
  | zero =>
      cases drawn
      exact ⟨population, rfl, rfl, rfl⟩
  | succ count ih =>
      obtain ⟨contacts, middle, one, later⟩ := bind_eq_ok_iff.1 drawn
      obtain ⟨others, last, more, shaped⟩ := bind_eq_ok_iff.1 later
      cases shaped
      obtain ⟨next, held, sized, stepped⟩ :=
        nodeStep_of_drawn within (by simp only; omega : NodeId.index { index } < population.size) one
      rw [← sized] at within inside
      obtain ⟨last, heldRest, sizedRest, visited⟩ := ih within (by omega : index + 1 + count ≤ _) more
      refine ⟨last, ?_, sizedRest.trans sized, ?_⟩
      · rw [nodesFrom_succ]
        exact bind_eq_ok_iff.2 ⟨(), next, held, heldRest⟩
      · exact bind_eq_ok_iff.2 ⟨(), _, stepped, visited⟩

/-- Where the draws stop, the visits stop with them. -/
theorem visit_of_halted {count index : Nat} {halt : Halt} (within : rule.Within population.size)
    (inside : index + count ≤ population.size)
    (stopped : answers (rule.drawContacts patience) count stream = .error halt rest) :
    ∃ left, visit rule patience count index { population, stream } =
      .error halt { population := left, stream := rest } := by
  induction count generalizing index population stream with
  | zero => cases stopped
  | succ count ih =>
      rcases bind_eq_error_iff.1 stopped with early | ⟨contacts, middle, one, later⟩
      · have stepped : nodeStep rule patience { index } { population, stream } =
            .error halt { population, stream := rest } := by simp only [nodeStep, early]
        exact ⟨population, bind_eq_error_iff.2 (.inl stepped)⟩
      · rcases bind_eq_error_iff.1 later with more | ⟨_, _, _, shaped⟩
        · obtain ⟨next, _, sized, stepped⟩ :=
            nodeStep_of_drawn within (by simp only; omega : NodeId.index { index } < population.size) one
          rw [← sized] at within inside
          obtain ⟨left, visited⟩ := ih within (by omega : index + 1 + count ≤ _) more
          exact ⟨left, bind_eq_error_iff.2 (.inr ⟨(), _, stepped, visited⟩)⟩
        · cases shaped

end Spread

namespace Epidemic

open Rumour.Population

/-- An epidemic of some parameters with any population of their size. -/
structure Framed (parameters : Parameters) (epidemic : Epidemic) : Prop where
  parametersEq : epidemic.parameters = parameters
  nodes : epidemic.nodeCount = parameters.size
  seeds : epidemic.seedCount = min parameters.policy.seedCount parameters.size
  size : epidemic.population.size = parameters.size

variable {parameters : Parameters} {epidemic : Epidemic} {patience : Nat} {stream rest : Stream}

theorem Of.framed (origin : epidemic.Of parameters) : epidemic.Framed parameters :=
  { parametersEq := origin.parametersEq
    nodes := origin.nodes
    seeds := origin.seeds
    size := origin.size }

theorem Framed.contactRule_eq (framed : epidemic.Framed parameters) :
    epidemic.contactRule = parameters.contactRule := by
  simp only [contactRule, Parameters.contactRule, framed.parametersEq, framed.nodes, framed.seeds]

theorem Framed.within (valid : parameters.validate = .ok ()) (framed : epidemic.Framed parameters) :
    parameters.contactRule.Within epidemic.population.size := by
  -- The rule is that of a fresh epidemic, which is known to be ready.
  obtain ⟨fresh, _, origin, _⟩ := start_of valid
  have draws := (origin.ready valid).draws
  rwa [origin.framed.contactRule_eq, origin.size, ← framed.size] at draws

theorem Framed.covered (framed : epidemic.Framed parameters) :
    0 + parameters.size ≤ epidemic.population.size := by
  have sized := framed.size
  omega

theorem pass_of_drawn (valid : parameters.validate = .ok ()) (framed : epidemic.Framed parameters)
    {lists : List (List NodeId)}
    (drawn : answers (parameters.drawList patience) parameters.size stream = .ok lists rest) :
    ∃ last, holdAll (List.zipWith Meeting.mk (nodesFrom 0 parameters.size) lists) epidemic.population =
        .ok () last ∧
      last.size = parameters.size ∧
      pass patience (epidemic, stream) =
        .ok () ({ epidemic with population := last, round := epidemic.round + 1 }, rest) := by
  rw [← ContactRule.drawContacts_eq_drawList] at drawn
  obtain ⟨last, held, sized, visited⟩ := Spread.visit_of_drawn (framed.within valid) framed.covered drawn
  rw [← framed.contactRule_eq, ← framed.nodes] at visited
  exact ⟨last, held, sized.trans framed.size, by simp only [pass, visited]⟩

theorem pass_of_halted (valid : parameters.validate = .ok ()) (framed : epidemic.Framed parameters)
    {halt : Halt}
    (stopped : answers (parameters.drawList patience) parameters.size stream = .error halt rest) :
    ∃ left, pass patience (epidemic, stream) = .error halt (left, rest) := by
  rw [← ContactRule.drawContacts_eq_drawList] at stopped
  obtain ⟨left, visited⟩ := Spread.visit_of_halted (framed.within valid) framed.covered stopped
  rw [← framed.contactRule_eq, ← framed.nodes] at visited
  exact ⟨{ epidemic with population := left }, by simp only [pass, visited]⟩

def passesBy (advance : EStateM Halt (Epidemic × Stream) Unit) :
    Nat -> EStateM Halt (Epidemic × Stream) Unit
  | 0 => pure ()
  | count + 1 => do
      advance
      passesBy advance count

def passes (patience : Nat) : Nat -> EStateM Halt (Epidemic × Stream) Unit :=
  passesBy (pass patience)

theorem Framed.passed (framed : epidemic.Framed parameters) {population : Population}
    (sized : population.size = parameters.size) (round : Nat) :
    Framed parameters { epidemic with population, round } :=
  { framed with size := sized }

theorem answers_passes {action : EStateM Halt Stream (List NodeId)} (size count : Nat) :
    answers action ((count + 1) * size) = (do
      let first <- answers action size
      let later <- answers action (count * size)
      pure (first ++ later)) := by
  rw [Nat.succ_mul, Nat.add_comm, answers_add]

theorem passes_of_drawn (valid : parameters.validate = .ok ()) (framed : epidemic.Framed parameters)
    {count : Nat} {lists : List (List NodeId)}
    (drawn : answers (parameters.drawList patience) (count * parameters.size) stream = .ok lists rest) :
    ∃ last, holdAll (List.zipWith Meeting.mk (visits parameters.size count) lists) epidemic.population =
        .ok () last ∧
      last.size = parameters.size ∧
      passes patience count (epidemic, stream) =
        .ok () ({ epidemic with population := last, round := epidemic.round + count }, rest) := by
  induction count generalizing epidemic stream lists with
  | zero =>
      rw [Nat.zero_mul] at drawn
      cases drawn
      exact ⟨epidemic.population, rfl, framed.size, rfl⟩
  | succ count ih =>
      rw [answers_passes] at drawn
      obtain ⟨first, middle, one, more⟩ := bind_eq_ok_iff.1 drawn
      obtain ⟨later, last, others, shaped⟩ := bind_eq_ok_iff.1 more
      cases shaped
      obtain ⟨next, held, sized, passed⟩ := pass_of_drawn valid framed one
      obtain ⟨last, heldLater, sizedLater, passedLater⟩ := ih (framed.passed sized _) others
      have lengths : (nodesFrom 0 parameters.size).length = first.length := by
        simp [nodesFrom, length_answers one]
      have order : List.zipWith Meeting.mk (visits parameters.size (count + 1)) (first ++ later) =
          List.zipWith Meeting.mk (nodesFrom 0 parameters.size) first ++
            List.zipWith Meeting.mk (visits parameters.size count) later := by
        rw [visits, List.replicate_succ, List.flatten_cons, List.zipWith_append lengths]
        rfl
      refine ⟨last, ?_, sizedLater, ?_⟩
      · rw [order, holdAll_concat]
        exact bind_eq_ok_iff.2 ⟨(), next, held, heldLater⟩
      · rw [← Nat.add_assoc, Nat.add_right_comm]
        exact bind_eq_ok_iff.2 ⟨(), _, passed, passedLater⟩

theorem passes_of_halted (valid : parameters.validate = .ok ()) (framed : epidemic.Framed parameters)
    {count : Nat} {halt : Halt}
    (stopped : answers (parameters.drawList patience) (count * parameters.size) stream =
      .error halt rest) :
    ∃ left, passes patience count (epidemic, stream) = .error halt (left, rest) := by
  induction count generalizing epidemic stream with
  | zero =>
      rw [Nat.zero_mul] at stopped
      cases stopped
  | succ count ih =>
      rw [answers_passes] at stopped
      rcases bind_eq_error_iff.1 stopped with early | ⟨first, middle, one, more⟩
      · obtain ⟨left, passed⟩ := pass_of_halted valid framed early
        exact ⟨left, bind_eq_error_iff.2 (.inl passed)⟩
      · rcases bind_eq_error_iff.1 more with late | ⟨_, _, _, shaped⟩
        · obtain ⟨next, _, sized, passed⟩ := pass_of_drawn valid framed one
          obtain ⟨left, passedLater⟩ := ih (framed.passed sized _) late
          exact ⟨left, bind_eq_error_iff.2 (.inr ⟨(), _, passed, passedLater⟩)⟩
        · cases shaped

theorem drawLists_guarantees (valid : parameters.validate = .ok ()) (patience count : Nat) :
    Guarantees (answers (parameters.drawList patience) count) (fun _ => True)
      (fun lists _ => ∀ contacts ∈ lists, (∀ node ∈ contacts, node.index < parameters.size) ∧
        (contacts.length = parameters.peers ∨
          parameters.policy.isSeeded = true ∧ contacts.length = parameters.peers + 1))
      Halt.Unfinished := by
  obtain ⟨fresh, _, origin, _⟩ := start_of valid
  have within := origin.framed.within valid
  rw [origin.size] at within
  apply answers_guarantees
  intro stream _
  have below := parameters.contactRule.drawContacts_guarantees patience parameters.size within stream trivial
  rw [ContactRule.drawContacts_eq_drawList] at below
  cases drawn : parameters.drawList patience stream with
  | error halt rest =>
      rw [drawn] at below
      exact below
  | ok contacts rest =>
      rw [drawn] at below
      exact ⟨below, Parameters.drawList_length drawn⟩

/-- Some passes draw a list of contacts for each visit of a node, and what they draw depends on the stream alone.
From any population of the size they come to the one that the meetings over these lists lead to, and to the
stream that the draws leave; where the draws come to the end of their patience, so do the passes. -/
theorem passes_predrawn {parameters : Parameters} {fresh : Epidemic}
    (created : start parameters = .ok fresh) (patience count : Nat) (stream : Stream) :
    (∀ lists rest,
      answers (parameters.drawList patience) (count * parameters.size) stream = .ok lists rest →
        lists.length = count * parameters.size ∧
        (∀ contacts ∈ lists, (∀ node ∈ contacts, node.index < parameters.size) ∧
          (contacts.length = parameters.peers ∨
            parameters.policy.isSeeded = true ∧ contacts.length = parameters.peers + 1)) ∧
        ∀ (population : Population) (round : Nat) (converged : Bool),
          population.size = parameters.size →
          ∃ last,
            holdAll (List.zipWith Meeting.mk (visits parameters.size count) lists) population =
              .ok () last ∧
            passes patience count ({ fresh with population, round, converged }, stream) =
              .ok () ({ fresh with population := last, round := round + count, converged }, rest)) ∧
    ∀ halt rest,
      answers (parameters.drawList patience) (count * parameters.size) stream = .error halt rest →
        halt = .unfinished ∧
        ∀ (population : Population) (round : Nat) (converged : Bool),
          population.size = parameters.size →
          ∃ left, passes patience count ({ fresh with population, round, converged }, stream) =
            .error .unfinished (left, rest) := by
  obtain ⟨valid, origin⟩ := start_eq_ok created
  have sure := drawLists_guarantees valid patience (count * parameters.size)
  have framed (population : Population) (round : Nat) (converged : Bool)
      (sized : population.size = parameters.size) :
      Framed parameters { fresh with population, round, converged } :=
    { parametersEq := origin.parametersEq
      nodes := origin.nodes
      seeds := origin.seeds
      size := sized }
  constructor
  next =>
    intro lists rest drawn
    refine ⟨length_answers drawn, sure.of_ok trivial drawn, fun population round converged sized => ?_⟩
    obtain ⟨last, held, _, passed⟩ := passes_of_drawn valid (framed population round converged sized) drawn
    exact ⟨last, held, passed⟩
  next =>
    intro halt rest stopped
    obtain rfl : halt = .unfinished := sure.of_error trivial stopped
    exact ⟨rfl, fun population round converged sized =>
      passes_of_halted valid (framed population round converged sized) stopped⟩

/-- More seeds than a node has an index for, each called on every other fall of the coin. -/
def manySeeds : Parameters :=
  { size := 3
    peers := 1
    policy := .seedBiased 4294967300 { bits := 0x3fe0000000000000 }
    maxRounds := none }

def manySeedsStart : Epidemic :=
  { parameters := manySeeds
    population := .fresh 3
    round := firstRound
    nodeCount := 3
    seedCount := 3
    converged := false }

def manySeedsLists : List (List NodeId) :=
  [[{ index := 2 }, { index := 0 }], [{ index := 1 }, { index := 0 }],
    [{ index := 1 }, { index := 2 }], [{ index := 1 }], [{ index := 1 }], [{ index := 0 }, { index := 2 }]]

/-- The draws of two passes take eighteen words. -/
theorem manySeeds_predrawn :
    start manySeeds = .ok manySeedsStart ∧
      answers (manySeeds.drawList 30) 6 (.ofSeed 1) = .ok manySeedsLists (Stream.skip 18 (.ofSeed 1)) ∧
      passes 30 2 ({ manySeedsStart with round := 5 }, .ofSeed 1) =
        .ok ()
          ({ manySeedsStart with
              population := { flags := #[true, true, true], infected := 3 }
              round := 7 },
            Stream.skip 18 (.ofSeed 1)) := by
  have created : start manySeeds = .ok manySeedsStart := by rfl
  have drawn : answers (manySeeds.drawList 30) 6 (.ofSeed 1) =
      .ok manySeedsLists (Stream.skip 18 (.ofSeed 1)) := by decide +kernel
  obtain ⟨_, _, everywhere⟩ := (passes_predrawn created 30 2 (.ofSeed 1)).1 _ _ drawn
  obtain ⟨last, held, passed⟩ := everywhere (.fresh 3) 5 false rfl
  have spread : holdAll (List.zipWith Meeting.mk (visits 3 2) manySeedsLists) (.fresh 3) =
      .ok () { flags := #[true, true, true], infected := 3 } := by rfl
  cases spread.symm.trans held
  exact ⟨created, drawn, passed⟩

end Epidemic

end Rumour

import Rumour.Proofs.Population.Calls

set_option autoImplicit false

/-!
Who is infected after an exchange. While all nodes are inside, an exchange comes to its end, and it infects just
the nodes that an infected node meets in it: the contacts of an infected node, or a node with an infected contact.
-/

namespace Rumour.Population

def Infected (population : Population) (node : NodeId) : Prop :=
  population.isInfected node = .ok true

def Inside (population : Population) (nodes : List NodeId) : Prop :=
  ∀ node ∈ nodes, node.index < population.size

/-- The infected nodes are those of before and those that are new. -/
structure Spreads (old : Population) (new : NodeId -> Prop) (population : Population) : Prop where
  size : population.size = old.size
  infected : ∀ node, population.Infected node ↔ old.Infected node ∨ new node

theorem infected_iff (population : Population) (node : NodeId) :
    population.Infected node ↔ population.flags[node.index]? = some true :=
  population.isInfected_eq_ok_iff node true

theorem infected_fresh_iff {size : Nat} (positive : 0 < size) (node : NodeId) :
    (fresh size).Infected node ↔ node = .origin := by
  rw [infected_iff]
  by_cases same : NodeId.origin.index = node.index
  next =>
    have origin := (fresh_sound size positive).origin
    have named : node = .origin := congrArg NodeId.mk same.symm
    simp [named, origin]
  next =>
    have other : node ≠ .origin := fun named => same (congrArg NodeId.index named.symm)
    simp [fresh, Array.getElem?_setIfInBounds_ne same, Array.getElem?_replicate, other]

theorem isInfected_inside {population : Population} {node : NodeId}
    (inside : node.index < population.size) : ∃ flag, population.isInfected node = .ok flag :=
  ⟨_, (population.isInfected_eq_ok_iff node _).2 (Array.getElem?_eq_getElem inside)⟩

theorem not_infected {population : Population} {node : NodeId}
    (healthy : population.isInfected node = .ok false) : ¬ population.Infected node := by
  simp [Infected, healthy]

theorem Inside.of_spreads {population next : Population} {nodes : List NodeId} {new : NodeId -> Prop}
    (inside : population.Inside nodes) (spreads : population.Spreads new next) : next.Inside nodes := by
  simpa [Inside, spreads.size] using inside

theorem Spreads.refl {population : Population} {new : NodeId -> Prop}
    (noneNew : ∀ node, new node → population.Infected node) : population.Spreads new population :=
  { size := rfl
    infected := fun node => ⟨.inl, fun infected => infected.elim id (noneNew node)⟩ }

theorem Spreads.trans {old middle population : Population} {new more : NodeId -> Prop}
    (first : old.Spreads new middle) (second : middle.Spreads more population) :
    old.Spreads (fun node => new node ∨ more node) population :=
  { size := second.size.trans first.size
    infected := fun node => by rw [second.infected, first.infected, or_assoc] }

theorem Spreads.congr {old population : Population} {new other : NodeId -> Prop}
    (spreads : old.Spreads new population)
    (same : ∀ node, old.Infected node ∨ new node ↔ old.Infected node ∨ other node) :
    old.Spreads other population :=
  { size := spreads.size
    infected := fun node => (spreads.infected node).trans (same node) }

theorem spreads_set {population : Population} {node : NodeId}
    (healthy : population.isInfected node = .ok false) :
    population.Spreads (· = node)
      { flags := population.flags.setIfInBounds node.index true
        infected := population.infected + 1 } := by
  have unset := (isInfected_eq_ok_iff _ _ _).1 healthy
  obtain ⟨inside, _⟩ := Array.getElem?_eq_some_iff.1 unset
  constructor
  next => simp [Population.size]
  next =>
    intro other
    rw [infected_iff, infected_iff]
    by_cases same : node.index = other.index
    next =>
      have named : other = node := congrArg NodeId.mk same.symm
      simp [named, Array.getElem?_setIfInBounds_self_of_lt inside]
    next =>
      have different : other ≠ node := fun named => same (congrArg NodeId.index named.symm)
      simp [Array.getElem?_setIfInBounds_ne same, different]

theorem infect_spreads {population : Population} {node : NodeId} (inside : node.index < population.size) :
    ∃ answer next, infect node population = .ok answer next ∧ population.Spreads (· = node) next := by
  obtain ⟨flag, found⟩ := isInfected_inside inside
  simp only [infect, found]
  cases flag with
  | true => exact ⟨_, _, rfl, .refl fun other named => named ▸ found⟩
  | false => exact ⟨_, _, rfl, spreads_set found⟩

theorem infectAll_spreads {population : Population} {nodes : List NodeId}
    (inside : population.Inside nodes) :
    ∃ next, infectAll nodes population = .ok () next ∧ population.Spreads (· ∈ nodes) next := by
  induction nodes generalizing population with
  | nil => exact ⟨population, rfl, .refl (by simp)⟩
  | cons node rest ih =>
      obtain ⟨head, tail⟩ := List.forall_mem_cons.1 inside
      obtain ⟨answer, middle, ran, first⟩ := infect_spreads head
      obtain ⟨next, ranRest, second⟩ := ih (Inside.of_spreads tail first)
      refine ⟨next, by simp only [infectAll, ran, ranRest], ?_⟩
      exact (first.trans second).congr fun other => by simp

theorem anyInfected_inside {population : Population} {nodes : List NodeId}
    (inside : population.Inside nodes) :
    ∃ found, population.anyInfected nodes = .ok found ∧
      (found = true ↔ ∃ node ∈ nodes, population.Infected node) := by
  induction nodes with
  | nil => exact ⟨false, rfl, by simp⟩
  | cons node rest ih =>
      obtain ⟨head, tail⟩ := List.forall_mem_cons.1 inside
      obtain ⟨flag, looked⟩ := isInfected_inside head
      cases flag with
      | true => exact ⟨true, by simp only [anyInfected, looked], by simp [Infected, looked]⟩
      | false =>
          obtain ⟨found, ran, means⟩ := ih tail
          exact ⟨found, by simp only [anyInfected, looked, ran], by simp [means, not_infected looked]⟩

/-- A step of one node: the node and those it contacts. -/
structure Meeting where
  node : NodeId
  contacts : List NodeId
  deriving DecidableEq, Repr

namespace Meeting

def members (meeting : Meeting) : List NodeId :=
  meeting.node :: meeting.contacts

/-- Of the two nodes, one takes the step and the other is a contact of it. -/
def Joins (meeting : Meeting) (one other : NodeId) : Prop :=
  one = meeting.node ∧ other ∈ meeting.contacts ∨ other = meeting.node ∧ one ∈ meeting.contacts

def hold (meeting : Meeting) : EStateM Fault Population Unit :=
  exchange meeting.node meeting.contacts

def Reaches (meeting : Meeting) (population : Population) (node : NodeId) : Prop :=
  ∃ source, population.Infected source ∧ meeting.Joins source node

theorem reaches_of_infected {meeting : Meeting} {population : Population}
    (infected : population.Infected meeting.node) (node : NodeId) :
    population.Infected node ∨ node ∈ meeting.contacts ↔
      population.Infected node ∨ meeting.Reaches population node := by
  constructor
  · rintro (already | contact)
    · exact .inl already
    · exact .inr ⟨meeting.node, infected, .inl ⟨rfl, contact⟩⟩
  · rintro (already | ⟨source, _, ⟨_, contact⟩ | ⟨rfl, _⟩⟩)
    · exact .inl already
    · exact .inr contact
    · exact .inl infected

theorem reaches_of_healthy {meeting : Meeting} {population : Population}
    (healthy : ¬ population.Infected meeting.node) (node : NodeId) :
    meeting.Reaches population node ↔
      node = meeting.node ∧ ∃ contact ∈ meeting.contacts, population.Infected contact := by
  constructor
  · rintro ⟨source, infected, ⟨rfl, _⟩ | ⟨rfl, contact⟩⟩
    · exact absurd infected healthy
    · exact ⟨rfl, source, contact, infected⟩
  · rintro ⟨rfl, source, contact, infected⟩
    exact ⟨source, infected, .inr ⟨rfl, contact⟩⟩

theorem hold_spreads {meeting : Meeting} {population : Population}
    (inside : population.Inside meeting.members) :
    ∃ next, meeting.hold population = .ok () next ∧
      population.Spreads (meeting.Reaches population) next := by
  obtain ⟨head, tail⟩ := List.forall_mem_cons.1 inside
  obtain ⟨flag, found⟩ := isInfected_inside head
  simp only [hold, exchange, found]
  -- An infected node pushes to its contacts, a healthy one pulls from them; the other way nothing crosses.
  cases flag with
  | true =>
      obtain ⟨next, ran, spreads⟩ := infectAll_spreads tail
      exact ⟨next, ran, spreads.congr (reaches_of_infected found)⟩
  | false =>
      have reaches := reaches_of_healthy (not_infected found)
      obtain ⟨pulled, ran, means⟩ := anyInfected_inside tail
      simp only [ran]
      cases pulled with
      | false =>
          refine ⟨population, rfl, .refl fun node reached => ?_⟩
          exact absurd (means.2 ((reaches node).1 reached).2) (by simp)
      | true =>
          have single : population.Inside [meeting.node] := by simpa [Inside] using head
          obtain ⟨next, ranPull, spreads⟩ := infectAll_spreads single
          refine ⟨next, ranPull, spreads.congr fun node => ?_⟩
          simp [reaches, means.1 rfl]

end Meeting

end Rumour.Population

import Rumour.Proofs.Population.Spreading

set_option autoImplicit false

/-!
An exchange as two phases: first an infected node sets the flags of all its contacts, then a node with a contact
that is infected by now sets its own. While all nodes are inside, an exchange is these two phases; else it stops
at the first node outside that it comes to.
-/

namespace Rumour.Population

def mark (nodes : List NodeId) (flags : Array Bool) : Array Bool :=
  nodes.foldl (fun flags node => flags.setIfInBounds node.index true) flags

def ofFlags (flags : Array Bool) : Population :=
  { flags, infected := flags.count true }

def marked (population : Population) (nodes : List NodeId) : Population :=
  ofFlags (mark nodes population.flags)

/-- The first phase: all contacts of an infected node become infected. -/
def push (node : NodeId) (contacts : List NodeId) (flags : Array Bool) : Array Bool :=
  if flags[node.index]? = some true then mark contacts flags else flags

/-- The second phase: a node becomes infected if any of its contacts is. -/
def pull (node : NodeId) (contacts : List NodeId) (flags : Array Bool) : Array Bool :=
  if contacts.any fun contact => flags[contact.index]? = some true then mark [node] flags else flags

def inPhases (population : Population) (node : NodeId) (contacts : List NodeId) : Population :=
  ofFlags (pull node contacts (push node contacts population.flags))

variable {population : Population} {node bad : NodeId} {contacts before after : List NodeId}
  {flags : Array Bool} {fault : Fault}

theorem ofFlags_flags (counted : population.infected = population.flags.count true) :
    ofFlags population.flags = population := by
  rw [ofFlags, ← counted]

/-! Marks -/

theorem mark_cons (node : NodeId) (rest : List NodeId) (flags : Array Bool) :
    mark (node :: rest) flags = mark rest (mark [node] flags) := rfl

theorem getElem?_mark (nodes : List NodeId) (flags : Array Bool) (index : Nat) :
    (mark nodes flags)[index]? = flags[index]?.map fun flag => flag || decide ({ index } ∈ nodes) := by
  induction nodes generalizing flags with
  | nil => simp [mark]
  | cons node rest ih =>
      have named : node = { index := node.index } := rfl
      rw [mark_cons, ih]
      by_cases same : node.index = index
      next =>
        subst same
        by_cases inside : node.index < flags.size
        · simp [mark, inside]
        · simp [mark, inside]
      next =>
        have other : ({ index } : NodeId) ≠ node := fun equal => same (congrArg NodeId.index equal.symm)
        simp [mark, Array.getElem?_setIfInBounds_ne same, other]

@[simp] theorem size_mark (nodes : List NodeId) (flags : Array Bool) :
    (mark nodes flags).size = flags.size := by
  induction nodes generalizing flags with
  | nil => rfl
  | cons node rest ih =>
      rw [mark_cons, ih]
      simp [mark]

@[simp] theorem size_marked (population : Population) (nodes : List NodeId) :
    (population.marked nodes).size = population.size :=
  size_mark nodes population.flags

theorem mark_of_set (set : flags[node.index]? = some true) : mark [node] flags = flags := by
  apply Array.ext_getElem?
  intro index
  rw [getElem?_mark]
  by_cases same : index = node.index
  · subst same
    simp [set]
  · have other : ({ index } : NodeId) ≠ node := fun equal => same (congrArg NodeId.index equal)
    simp [other]

theorem mark_congr {others : List NodeId} (same : ∀ contact, contact ∈ others ↔ contact ∈ contacts)
    (flags : Array Bool) : mark others flags = mark contacts flags := by
  apply Array.ext_getElem?
  intro index
  simp only [getElem?_mark, same]

theorem inPhases_congr {others : List NodeId} (same : ∀ contact, contact ∈ others ↔ contact ∈ contacts)
    (population : Population) (node : NodeId) :
    population.inPhases node others = population.inPhases node contacts := by
  have found (flags : Array Bool) : (others.any fun contact => flags[contact.index]? = some true) =
      contacts.any fun contact => flags[contact.index]? = some true := by
    rw [Bool.eq_iff_iff]
    simp only [List.any_eq_true, same]
  rw [inPhases, push, mark_congr same, pull, found]
  rfl

/-! Infections of nodes inside -/

theorem infect_marked (counted : population.infected = population.flags.count true)
    (inside : node.index < population.size) :
    ∃ answer, infect node population = .ok answer (population.marked [node]) := by
  obtain ⟨flag, found⟩ := isInfected_inside inside
  have looked := (isInfected_eq_ok_iff _ _ _).1 found
  simp only [infect, found]
  cases flag with
  | true =>
      rw [marked, mark_of_set looked, ofFlags_flags counted]
      exact ⟨_, rfl⟩
  | false =>
      have raised : population.infected + 1 = (mark [node] population.flags).count true :=
        (grown_set (grown_refl counted) looked).counted
      rw [marked, ofFlags, ← raised]
      exact ⟨_, rfl⟩

theorem infectAll_append (counted : population.infected = population.flags.count true)
    (inside : population.Inside before) :
    infectAll (before ++ after) population = infectAll after (population.marked before) := by
  induction before generalizing population with
  | nil => rw [List.nil_append, marked, mark, List.foldl_nil, ofFlags_flags counted]
  | cons node rest ih =>
      obtain ⟨head, tail⟩ := List.forall_mem_cons.1 inside
      obtain ⟨answer, ran⟩ := infect_marked counted head
      have insideRest : (population.marked [node]).Inside rest := by simpa [Inside] using tail
      simp only [List.cons_append, infectAll, ran]
      rw [ih rfl insideRest]
      rfl

theorem isInfected_outside (outside : population.size ≤ node.index) :
    population.isInfected node = .error (population.outside node) := by
  have missing := Array.getElem?_eq_none outside
  simp only [isInfected, missing]

theorem infectAll_stops (counted : population.infected = population.flags.count true)
    (inside : population.Inside before) (outside : population.size ≤ bad.index) :
    infectAll (before ++ bad :: after) population =
      .error (population.outside bad) (population.marked before) := by
  have beyond : (population.marked before).size ≤ bad.index := by simpa using outside
  rw [infectAll_append counted inside]
  simp only [infectAll, infect, isInfected_outside beyond]
  simp [Population.outside]

/-- The first node outside, if there is one. -/
theorem inside_or_first (population : Population) (nodes : List NodeId) :
    population.Inside nodes ∨
      ∃ before bad after, nodes = before ++ bad :: after ∧ population.Inside before ∧
        population.size ≤ bad.index := by
  induction nodes with
  | nil => exact .inl (by simp [Inside])
  | cons node rest ih =>
      by_cases inside : node.index < population.size
      next =>
        rcases ih with all | ⟨before, bad, after, rfl, early, outside⟩
        · exact .inl (List.forall_mem_cons.2 ⟨inside, all⟩)
        · exact .inr ⟨node :: before, bad, after, rfl, List.forall_mem_cons.2 ⟨inside, early⟩, outside⟩
      next => exact .inr ⟨[], node, rest, rfl, by simp [Inside], Nat.not_lt.1 inside⟩

theorem anyInfected_append (healthy : ∀ contact ∈ before, population.isInfected contact = .ok false) :
    population.anyInfected (before ++ after) = population.anyInfected after := by
  induction before with
  | nil => rfl
  | cons node rest ih =>
      obtain ⟨head, tail⟩ := List.forall_mem_cons.1 healthy
      simp only [List.cons_append, anyInfected, head, ih tail]

theorem anyInfected_eq_error_iff (population : Population) (nodes : List NodeId) (fault : Fault) :
    population.anyInfected nodes = .error fault ↔
      ∃ before bad after, nodes = before ++ bad :: after ∧
        (∀ contact ∈ before, population.isInfected contact = .ok false) ∧
        population.size ≤ bad.index ∧ fault = population.outside bad := by
  constructor
  · intro stopped
    induction nodes with
    | nil => cases stopped
    | cons node rest ih =>
        unfold anyInfected at stopped
        split at stopped
        next => cases stopped
        next healthy =>
          obtain ⟨before, bad, after, rfl, early, outside, named⟩ := ih stopped
          exact ⟨node :: before, bad, after, rfl, List.forall_mem_cons.2 ⟨healthy, early⟩, outside, named⟩
        next failed =>
          cases stopped
          obtain ⟨outside, named⟩ := isInfected_error failed
          exact ⟨[], node, rest, rfl, by simp, outside, named⟩
  · rintro ⟨before, bad, after, rfl, healthy, outside, rfl⟩
    rw [anyInfected_append healthy]
    simp only [anyInfected, isInfected_outside outside]

/-! Exchanges -/

theorem infectAll_inside (counted : population.infected = population.flags.count true)
    (inside : population.Inside contacts) :
    infectAll contacts population = .ok () (population.marked contacts) := by
  have all : infectAll (contacts ++ []) population = .ok () (population.marked contacts) :=
    infectAll_append counted inside
  rwa [List.append_nil] at all

theorem exchange_inPhases (counted : population.infected = population.flags.count true)
    (inside : population.Inside (node :: contacts)) :
    exchange node contacts population = .ok () (population.inPhases node contacts) := by
  obtain ⟨head, tail⟩ := List.forall_mem_cons.1 inside
  obtain ⟨flag, found⟩ := isInfected_inside head
  have looked := (isInfected_eq_ok_iff _ _ _).1 found
  simp only [exchange, found, inPhases]
  cases flag with
  | true =>
      -- The node is infected already, so the second phase sets nothing new.
      have kept : (mark contacts population.flags)[node.index]? = some true := by
        simp [getElem?_mark, looked]
      rw [infectAll_inside counted tail, push, if_pos looked, pull, mark_of_set kept, ite_self]
      rfl
  | false =>
      have pushed : push node contacts population.flags = population.flags := by simp [push, looked]
      obtain ⟨pulled, ran, means⟩ := anyInfected_inside tail
      have single : population.Inside [node] := by simpa [Inside] using head
      have any : (contacts.any fun contact => population.flags[contact.index]? = some true) = pulled := by
        rw [Bool.eq_iff_iff, means]
        simp [infected_iff]
      simp only [ran, pushed, pull, any]
      cases pulled with
      | true => exact infectAll_inside counted single
      | false => simp [ofFlags_flags counted]

theorem infectAll_eq_error_iff (counted : population.infected = population.flags.count true)
    (left : Population) :
    infectAll contacts population = .error fault left ↔
      ∃ before bad after, contacts = before ++ bad :: after ∧ population.Inside before ∧
        population.size ≤ bad.index ∧ fault = population.outside bad ∧ left = population.marked before := by
  constructor
  · intro stopped
    rcases inside_or_first population contacts with all | ⟨before, bad, after, rfl, early, outside⟩
    · rw [infectAll_inside counted all] at stopped
      cases stopped
    · rw [infectAll_stops counted early outside] at stopped
      cases stopped
      exact ⟨before, bad, after, rfl, early, outside, rfl, rfl⟩
  · rintro ⟨before, bad, after, rfl, early, outside, rfl, rfl⟩
    exact infectAll_stops counted early outside

theorem inside_of_healthy (healthy : ∀ contact ∈ before, population.isInfected contact = .ok false) :
    population.Inside before := by
  intro contact member
  have looked := (isInfected_eq_ok_iff _ _ _).1 (healthy contact member)
  exact (Array.getElem?_eq_some_iff.1 looked).1

theorem exchange_healthy_eq_error_iff (counted : population.infected = population.flags.count true)
    (found : population.isInfected node = .ok false) (left : Population) :
    exchange node contacts population = .error fault left ↔
      population.anyInfected contacts = .error fault ∧ left = population := by
  have single : population.Inside [node] := inside_of_healthy (by simpa using found)
  simp only [exchange, found]
  cases ran : population.anyInfected contacts with
  | error cause => simp [eq_comm]
  | ok pulled =>
      cases pulled with
      | true => simp [infectAll_inside counted single]
      | false => simp

theorem exchange_eq_error_iff (counted : population.infected = population.flags.count true)
    (left : Population) :
    exchange node contacts population = .error fault left ↔
      population.size ≤ node.index ∧ fault = population.outside node ∧ left = population ∨
      ∃ before bad after, contacts = before ++ bad :: after ∧ population.Inside before ∧
        population.size ≤ bad.index ∧ fault = population.outside bad ∧
        (population.isInfected node = .ok true ∧ left = population.marked before ∨
          population.isInfected node = .ok false ∧ left = population ∧
            ∀ contact ∈ before, population.isInfected contact = .ok false) := by
  cases found : population.isInfected node with
  | error cause =>
      obtain ⟨beyond, rfl⟩ := isInfected_error found
      simp [exchange, found, beyond, eq_comm]
  | ok flag =>
      have within : ¬ population.size ≤ node.index := by
        intro beyond
        rw [isInfected_outside beyond] at found
        cases found
      simp only [within, false_and, false_or]
      cases flag with
      | true =>
          have pushes : exchange node contacts population = infectAll contacts population := by
            simp only [exchange, found]
          rw [pushes, infectAll_eq_error_iff counted]
          simp
      | false =>
          rw [exchange_healthy_eq_error_iff counted found, anyInfected_eq_error_iff]
          constructor
          · rintro ⟨⟨before, bad, after, split, healthy, outside, named⟩, same⟩
            exact ⟨before, bad, after, split, inside_of_healthy healthy, outside, named,
              .inr ⟨rfl, same, healthy⟩⟩
          · rintro ⟨before, bad, after, split, _, outside, named, ⟨impossible, _⟩ | ⟨_, same, healthy⟩⟩
            · cases impossible
            · exact ⟨⟨before, bad, after, split, healthy, outside, named⟩, same⟩

theorem healthy_of_inside (inside : population.Inside before)
    (noneInfected : ∀ contact ∈ before, population.isInfected contact ≠ .ok true) :
    ∀ contact ∈ before, population.isInfected contact = .ok false := by
  intro contact member
  obtain ⟨flag, found⟩ := isInfected_inside (inside contact member)
  cases flag with
  | true => exact absurd found (noneInfected contact member)
  | false => exact found

theorem exchange_stops_iff (counted : population.infected = population.flags.count true)
    (node : NodeId) (contacts : List NodeId) :
    (∃ fault left, exchange node contacts population = .error fault left) ↔
      population.size ≤ node.index ∨
        (population.isInfected node = .ok true ∧ ∃ contact ∈ contacts, population.size ≤ contact.index) ∨
        (population.isInfected node = .ok false ∧
          ∃ before bad after, contacts = before ++ bad :: after ∧ population.size ≤ bad.index ∧
            ∀ contact ∈ before, population.isInfected contact ≠ .ok true) := by
  simp only [exchange_eq_error_iff counted]
  constructor
  · rintro ⟨fault, left, ⟨beyond, _, _⟩ |
      ⟨before, bad, after, rfl, _, outside, _, ⟨infected, _⟩ | ⟨healthy, _, early⟩⟩⟩
    · exact .inl beyond
    · exact .inr (.inl ⟨infected, bad, by simp, outside⟩)
    · exact .inr (.inr ⟨healthy, before, bad, after, rfl, outside, fun contact member => by
        simp [early contact member]⟩)
  · rintro (beyond | ⟨infected, contact, member, outside⟩ |
      ⟨healthy, before, bad, after, rfl, outside, noneInfected⟩)
    · exact ⟨_, _, .inl ⟨beyond, rfl, rfl⟩⟩
    · rcases inside_or_first population contacts with all | ⟨before, bad, after, split, early, first⟩
      · exact absurd (all contact member) (Nat.not_lt.2 outside)
      · exact ⟨_, _, .inr ⟨before, bad, after, split, early, first, rfl, .inl ⟨infected, rfl⟩⟩⟩
    · -- The contact that stops the scan may come before the given one.
      rcases inside_or_first population before with all | ⟨earlier, worse, rest, rfl, early, first⟩
      · exact ⟨_, _, .inr ⟨before, bad, after, rfl, all, outside, rfl,
          .inr ⟨healthy, rfl, healthy_of_inside all noneInfected⟩⟩⟩
      · have noneEarlier : ∀ contact ∈ earlier, population.isInfected contact ≠ .ok true :=
          fun contact member => noneInfected contact (List.mem_append_left _ member)
        exact ⟨_, _, .inr ⟨earlier, worse, rest ++ bad :: after, by simp, early, first, rfl,
          .inr ⟨healthy, rfl, healthy_of_inside early noneEarlier⟩⟩⟩

/-- In any population that calls lead to, an exchange among nodes inside is the two phases, and it depends on no
more of the contacts than which they are. It stops just where it comes to a node outside, which it names: a healthy
node looks at its contacts up to the first that is infected and has changed nothing; an infected one has infected
the contacts before. -/
theorem exchange_exact {size : Nat} {start : Population} (created : ofSize size = .ok start)
    {calls : List Call} {population : Population} (called : start.after calls = population) (node : NodeId)
    (contacts : List NodeId) :
    ((∀ member ∈ node :: contacts, member.index < population.size) →
      exchange node contacts population = .ok () (population.inPhases node contacts) ∧
        ∀ others, (∀ contact, contact ∈ others ↔ contact ∈ contacts) →
          exchange node others population = exchange node contacts population) ∧
    ((∃ fault left, exchange node contacts population = .error fault left) ↔
      population.size ≤ node.index ∨
        (population.isInfected node = .ok true ∧ ∃ contact ∈ contacts, population.size ≤ contact.index) ∨
        (population.isInfected node = .ok false ∧
          ∃ before bad after, contacts = before ++ bad :: after ∧ population.size ≤ bad.index ∧
            ∀ contact ∈ before, population.isInfected contact ≠ .ok true)) ∧
    ∀ fault left, exchange node contacts population = .error fault left ↔
      (population.size ≤ node.index ∧ fault = .indexOutOfRange population.size node.index ∧
        left = population) ∨
      ∃ before bad after, contacts = before ++ bad :: after ∧
        (∀ contact ∈ before, contact.index < population.size) ∧ population.size ≤ bad.index ∧
        fault = .indexOutOfRange population.size bad.index ∧
        (population.isInfected node = .ok true ∧ left = population.marked before ∨
          population.isInfected node = .ok false ∧ left = population ∧
            ∀ contact ∈ before, population.isInfected contact = .ok false) := by
  obtain ⟨positive, _, rfl⟩ := (ofSize_eq_ok_iff size start).1 created
  have grown : (fresh size).Grown population := called ▸ after_grown (fresh_sound size positive).grown calls
  have counted := grown.counted
  refine ⟨fun inside => ?_, exchange_stops_iff counted node contacts,
    fun fault left => exchange_eq_error_iff counted left⟩
  have phases := exchange_inPhases counted inside
  refine ⟨phases, fun others same => ?_⟩
  have insideToo : population.Inside (node :: others) := by
    simpa [Inside, same] using inside
  rw [phases, exchange_inPhases counted insideToo, inPhases_congr same]

/-- The population that a push leaves which stops behind node 2. -/
def strayPushed : Population :=
  (fresh 4).after [.exchange { index := 0 } [{ index := 2 }, { index := 9 }]]

theorem strayPushed_exact :
    ofSize 4 = .ok (fresh 4) ∧ strayPushed = { flags := #[true, false, true, false], infected := 2 } ∧
      exchange { index := 1 } [{ index := 3 }, { index := 2 }, { index := 3 }] strayPushed =
        .ok () { flags := #[true, true, true, false], infected := 3 } ∧
      exchange { index := 1 } [{ index := 2 }, { index := 3 }] strayPushed =
        exchange { index := 1 } [{ index := 3 }, { index := 2 }, { index := 3 }] strayPushed ∧
      exchange { index := 0 } [{ index := 1 }, { index := 7 }, { index := 3 }] strayPushed =
        .error (.indexOutOfRange 4 7) { flags := #[true, true, true, false], infected := 3 } ∧
      exchange { index := 1 } [{ index := 3 }, { index := 8 }, { index := 2 }] strayPushed =
        .error (.indexOutOfRange 4 8) strayPushed := by
  have created : ofSize 4 = .ok (fresh 4) := rfl
  have called : (fresh 4).after [.exchange { index := 0 } [{ index := 2 }, { index := 9 }]] = strayPushed := rfl
  have reached : strayPushed = { flags := #[true, false, true, false], infected := 2 } := by decide
  obtain ⟨phases, unordered⟩ :=
    (exchange_exact created called { index := 1 } [{ index := 3 }, { index := 2 }, { index := 3 }]).1 (by decide)
  have both : strayPushed.inPhases { index := 1 } [{ index := 3 }, { index := 2 }, { index := 3 }] =
      { flags := #[true, true, true, false], infected := 3 } := by decide
  refine ⟨created, reached, both ▸ phases, unordered _ (by simp [or_comm]), ?_, ?_⟩
  · have stops := (exchange_exact created called { index := 0 } [{ index := 1 }, { index := 7 }, { index := 3 }]).2.2
    exact (stops _ _).2 (.inr ⟨[{ index := 1 }], { index := 7 }, [{ index := 3 }], by decide, by decide,
      by decide, by decide, .inl ⟨rfl, by decide⟩⟩)
  · have healthy : ∀ contact ∈ [({ index := 3 } : NodeId)], strayPushed.isInfected contact = .ok false := by
      rw [List.forall_mem_singleton]
      rfl
    have stops := (exchange_exact created called { index := 1 } [{ index := 3 }, { index := 8 }, { index := 2 }]).2.2
    exact (stops _ _).2 (.inr ⟨[{ index := 3 }], { index := 8 }, [{ index := 2 }], by decide, by decide,
      by decide, by decide, .inr ⟨rfl, rfl, healthy⟩⟩)

end Rumour.Population

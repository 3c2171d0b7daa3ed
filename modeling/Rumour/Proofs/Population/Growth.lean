import Rumour.Population
import Rumour.Proofs.Guarantee

set_option autoImplicit false

/-!
How a population grows. The count of a sound population is the number of its set flags, and its origin is
infected. An exchange keeps the size, clears no flag and keeps the count in step, also where it stops at a
node outside.
-/

namespace Rumour.Population

structure Sound (population : Population) : Prop where
  counted : population.infected = population.flags.count true
  origin : population.flags[NodeId.origin.index]? = some true

structure Grown (old population : Population) : Prop where
  size : population.size = old.size
  kept : ∀ index : Nat, old.flags[index]? = some true → population.flags[index]? = some true
  counted : population.infected = population.flags.count true

/-- A fault that names one of some nodes, which is not in the population. -/
def Outside (population : Population) (nodes : List NodeId) (fault : Fault) : Prop :=
  ∃ node ∈ nodes, population.size ≤ node.index ∧ fault = population.outside node

theorem grown_refl {population : Population}
    (counted : population.infected = population.flags.count true) : population.Grown population :=
  { size := rfl
    kept := fun _ set => set
    counted }

theorem Sound.grown {population : Population} (sound : population.Sound) :
    population.Grown population :=
  grown_refl sound.counted

theorem Grown.trans {old middle population : Population} (first : old.Grown middle)
    (second : middle.Grown population) : old.Grown population :=
  { size := second.size.trans first.size
    kept := fun index set => second.kept index (first.kept index set)
    counted := second.counted }

theorem Grown.sound {old population : Population} (grown : old.Grown population) (sound : old.Sound) :
    population.Sound :=
  { counted := grown.counted
    origin := grown.kept _ sound.origin }

theorem Sound.infected_le {population : Population} (sound : population.Sound) :
    population.infected ≤ population.size := by
  rw [sound.counted]
  exact Array.count_le_size

theorem Sound.infected_pos {population : Population} (sound : population.Sound) :
    1 ≤ population.infected := by
  rw [sound.counted, Array.one_le_count_iff]
  exact Array.mem_of_getElem? sound.origin

theorem Sound.infected_lt {population : Population} (sound : population.Sound)
    (someHealthy : population.allInfected = false) : population.infected < population.size := by
  have bound := sound.infected_le
  have differ : population.infected ≠ population.size := by simpa [allInfected] using someHealthy
  omega

@[simp] theorem size_fresh (size : Nat) : (fresh size).size = size := by
  simp [fresh, Population.size]

theorem fresh_sound (size : Nat) (positive : 0 < size) : (fresh size).Sound := by
  have inside : NodeId.origin.index < (Array.replicate size false).size := by
    simpa [NodeId.origin] using positive
  constructor
  next =>
    simp only [fresh, Array.setIfInBounds, inside, dif_pos]
    rw [Array.count_set inside]
    simp [Array.count_replicate]
  next => exact Array.getElem?_setIfInBounds_self_of_lt inside

theorem Grown.outside {old population : Population} {nodes : List NodeId} {fault : Fault}
    (grown : old.Grown population) (bad : population.Outside nodes fault) : old.Outside nodes fault := by
  simpa [Outside, Population.outside, grown.size] using bad

theorem Outside.mono {population : Population} {someNodes more : List NodeId} {fault : Fault}
    (bad : population.Outside someNodes fault) (subset : someNodes ⊆ more) :
    population.Outside more fault := by
  obtain ⟨node, member, beyond, named⟩ := bad
  exact ⟨node, subset member, beyond, named⟩

theorem count_le_of_kept (old next : List Bool) (sizes : next.length = old.length)
    (kept : ∀ index : Nat, old[index]? = some true → next[index]? = some true) :
    old.count true ≤ next.count true := by
  induction old generalizing next with
  | nil => simp
  | cons flag rest ih =>
      cases next with
      | nil => cases sizes
      | cons other later =>
          have tail := ih later (by simpa using sizes) fun index => by simpa using kept (index + 1)
          have head : flag = true → other = true := by simpa using kept 0
          cases flag with
          | false => exact Nat.le_trans (by simpa using tail) (List.count_le_count_cons)
          | true => simpa [head rfl] using tail

theorem Grown.infected_le {old population : Population} (grown : old.Grown population) (sound : old.Sound) :
    old.infected ≤ population.infected := by
  rw [sound.counted, grown.counted, ← Array.count_toList, ← Array.count_toList]
  exact count_le_of_kept _ _ grown.size fun index => by simpa using grown.kept index

theorem isInfected_error {population : Population} {node : NodeId} {fault : Fault}
    (failed : population.isInfected node = .error fault) :
    population.size ≤ node.index ∧ fault = population.outside node := by
  unfold isInfected at failed
  split at failed
  next => cases failed
  next missing =>
    cases failed
    exact ⟨Array.getElem?_eq_none_iff.1 missing, rfl⟩

theorem isInfected_eq_ok_iff (population : Population) (node : NodeId) (flag : Bool) :
    population.isInfected node = .ok flag ↔ population.flags[node.index]? = some flag := by
  unfold isInfected
  cases population.flags[node.index]? <;> simp

theorem grown_set {old population : Population} {index : Nat} (grown : old.Grown population)
    (healthy : population.flags[index]? = some false) :
    old.Grown
      { flags := population.flags.setIfInBounds index true
        infected := population.infected + 1 } := by
  obtain ⟨inside, unset⟩ := Array.getElem?_eq_some_iff.1 healthy
  constructor
  next => simpa [Population.size] using grown.size
  next =>
    intro other set
    by_cases same : index = other
    next => simp [← same, Array.getElem?_setIfInBounds_self_of_lt inside]
    next => simpa [Array.getElem?_setIfInBounds_ne same] using grown.kept other set
  next =>
    simp only [Array.setIfInBounds, inside, dif_pos]
    rw [Array.count_set inside, grown.counted]
    simp [unset]

theorem infect_grown (old : Population) (node : NodeId) :
    Guarantees (infect node) old.Grown (fun _ => old.Grown)
      (fun fault population => old.Grown population ∧ old.Outside [node] fault) := by
  intro population grown
  unfold infect
  cases found : population.isInfected node with
  | error fault =>
      have bad := isInfected_error found
      exact ⟨grown, grown.outside ⟨node, by simp, bad⟩⟩
  | ok flag =>
      cases flag with
      | true => exact grown
      | false => exact grown_set grown ((isInfected_eq_ok_iff _ _ _).1 found)

theorem infectAll_grown (old : Population) (nodes : List NodeId) :
    Guarantees (infectAll nodes) old.Grown (fun _ => old.Grown)
      (fun fault population => old.Grown population ∧ old.Outside nodes fault) := by
  induction nodes with
  | nil =>
      intro population grown
      exact grown
  | cons node rest ih =>
      intro population grown
      unfold infectAll
      have head := infect_grown old node population grown
      cases ran : infect node population with
      | error fault next =>
          rw [ran] at head
          exact ⟨head.1, head.2.mono (by simp)⟩
      | ok fresh next =>
          rw [ran] at head
          exact (ih.weaken fun _ _ stopped => ⟨stopped.1, stopped.2.mono (by simp)⟩) next head

theorem anyInfected_error {population : Population} {nodes : List NodeId} {fault : Fault}
    (failed : population.anyInfected nodes = .error fault) : population.Outside nodes fault := by
  induction nodes with
  | nil => cases failed
  | cons node rest ih =>
      unfold anyInfected at failed
      split at failed
      next => cases failed
      next => exact (ih failed).mono (by simp)
      next stopped =>
        cases failed
        exact ⟨node, by simp, isInfected_error stopped⟩

theorem exchange_grown (old : Population) (node : NodeId) (contacts : List NodeId) :
    Guarantees (exchange node contacts) old.Grown (fun _ => old.Grown)
      (fun fault population => old.Grown population ∧ old.Outside (node :: contacts) fault) := by
  intro population grown
  unfold exchange
  cases found : population.isInfected node with
  | error fault =>
      have bad := isInfected_error found
      exact ⟨grown, grown.outside ⟨node, by simp, bad⟩⟩
  | ok flag =>
      cases flag with
      | true =>
          exact ((infectAll_grown old contacts).weaken fun _ _ stopped =>
            ⟨stopped.1, stopped.2.mono (by simp)⟩) population grown
      | false =>
          simp only
          cases pulled : population.anyInfected contacts with
          | error fault => exact ⟨grown, grown.outside ((anyInfected_error pulled).mono (by simp))⟩
          | ok someInfected =>
              cases someInfected with
              | true =>
                  exact ((infectAll_grown old [node]).weaken fun _ _ stopped =>
                    ⟨stopped.1, stopped.2.mono (by simp)⟩) population grown
              | false => exact grown

theorem exchange_inside (old : Population) (node : NodeId) (contacts : List NodeId)
    (inside : ∀ member ∈ node :: contacts, member.index < old.size) :
    Guarantees (exchange node contacts) old.Grown (fun _ => old.Grown) (fun _ _ => False) := by
  apply (exchange_grown old node contacts).weaken
  rintro fault population ⟨-, member, listed, beyond, -⟩
  have within := inside member listed
  omega

end Rumour.Population

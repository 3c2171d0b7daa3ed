import Rumour.Proofs.Population.Phases

set_option autoImplicit false

/-!
Populations side by side. An exchange among nodes of the first population is the same with more nodes behind them: it
ends in the same way, and what it leaves has the same nodes behind. So of any population it sees only the first part
that its nodes lie in.
-/

namespace Rumour

namespace Population

/-- The nodes of one population, then those of another. -/
def beside (front back : Population) : Population :=
  { flags := front.flags ++ back.flags
    infected := front.infected + back.infected }

def first (size : Nat) (population : Population) : Population :=
  ofFlags (population.flags.extract 0 size)

def behind (size : Nat) (population : Population) : Population :=
  ofFlags (population.flags.extract size)

theorem first_beside_behind {population : Population}
    (counted : population.infected = population.flags.count true) (size : Nat) :
    (population.first size).beside (population.behind size) = population := by
  have whole : population.flags.extract 0 size ++ population.flags.extract size = population.flags := by
    rw [Array.extract_append_extract]
    exact Array.extract_eq_self_iff.2 (.inr ⟨Nat.zero_min size, Nat.le_max_right _ _⟩)
  have sum := congrArg (Array.count true) whole
  rw [Array.count_append, ← counted] at sum
  simp only [beside, first, behind, ofFlags, whole, sum]

theorem size_first {population : Population} {size : Nat} (covers : size ≤ population.size) :
    (population.first size).size = size := by
  simp only [first, ofFlags, Population.size, Array.size_extract, Nat.sub_zero]
  exact Nat.min_eq_left covers

theorem first_congr {one other : Population} {size : Nat} (coversOne : size ≤ one.size)
    (coversOther : size ≤ other.size) (alike : ∀ index, index < size → one.flags[index]? = other.flags[index]?) :
    one.first size = other.first size := by
  have same : one.flags.extract 0 size = other.flags.extract 0 size := by
    apply Array.ext_getElem?
    intro index
    have insideOne : size ≤ one.flags.size := coversOne
    have insideOther : size ≤ other.flags.size := coversOther
    rw [Array.getElem?_extract, Array.getElem?_extract, Nat.min_eq_left insideOne, Nat.min_eq_left insideOther]
    split
    next within => simpa using alike index (by omega)
    next => rfl
  rw [first, first, same]

section

variable {front : Population} (back : Population)

theorem getElem?_beside_front {index : Nat} (inside : index < front.size) :
    (front.beside back).flags[index]? = front.flags[index]? :=
  Array.getElem?_append_left inside

theorem getElem?_beside_back {index : Nat} (beyond : front.size ≤ index) :
    (front.beside back).flags[index]? = back.flags[index - front.size]? :=
  Array.getElem?_append_right beyond

theorem isInfected_beside {node : NodeId} (inside : node.index < front.size) :
    (front.beside back).isInfected node = front.isInfected node := by
  obtain ⟨flag, looked⟩ := isInfected_inside inside
  rw [looked, isInfected_eq_ok_iff, getElem?_beside_front back inside]
  exact (isInfected_eq_ok_iff _ _ _).1 looked

theorem infect_beside {node : NodeId} (inside : node.index < front.size) :
    infect node (front.beside back) = seenAs (beside · back) (infect node front) := by
  have looked := isInfected_beside back inside
  simp only [infect, looked]
  cases front.isInfected node with
  | error fault => rfl
  | ok flag =>
      cases flag with
      | true => rfl
      | false =>
          have set : (front.flags ++ back.flags).setIfInBounds node.index true =
              front.flags.setIfInBounds node.index true ++ back.flags := Array.setIfInBounds_append_left inside
          simp only [beside, set, Nat.add_right_comm, seenAs]

theorem infectAll_beside {nodes : List NodeId} (inside : front.Inside nodes) :
    infectAll nodes (front.beside back) = seenAs (beside · back) (infectAll nodes front) := by
  induction nodes generalizing front with
  | nil => rfl
  | cons node rest ih =>
      obtain ⟨head, tail⟩ := List.forall_mem_cons.1 inside
      obtain ⟨answer, middle, ran, spreads⟩ := infect_spreads head
      simp only [infectAll, infect_beside back head, ran, seenAs]
      exact ih (Inside.of_spreads tail spreads)

theorem anyInfected_beside {nodes : List NodeId} (inside : front.Inside nodes) :
    (front.beside back).anyInfected nodes = front.anyInfected nodes := by
  induction nodes with
  | nil => rfl
  | cons node rest ih =>
      obtain ⟨head, tail⟩ := List.forall_mem_cons.1 inside
      simp only [anyInfected, isInfected_beside back head, ih tail]

theorem exchange_beside {node : NodeId} {contacts : List NodeId} (inside : front.Inside (node :: contacts)) :
    exchange node contacts (front.beside back) = seenAs (beside · back) (exchange node contacts front) := by
  obtain ⟨head, tail⟩ := List.forall_mem_cons.1 inside
  have single : front.Inside [node] := List.forall_mem_singleton.2 head
  simp only [exchange, isInfected_beside back head, anyInfected_beside back tail]
  cases front.isInfected node with
  | error fault => rfl
  | ok infected =>
      cases infected with
      | true => exact infectAll_beside back tail
      | false =>
          cases front.anyInfected contacts with
          | error fault => rfl
          | ok found =>
              cases found with
              | true => exact infectAll_beside back single
              | false => rfl

end

end Population

end Rumour

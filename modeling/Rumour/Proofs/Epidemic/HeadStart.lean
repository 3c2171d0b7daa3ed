import Rumour.Epidemic.Words
import Rumour.Proofs.Epidemic.Predrawn

set_option autoImplicit false

/-!
Head starts. Of two populations of a size, let all that is infected in one be infected in the other. The two draw
the same contacts from the same stream, and an exchange keeps the one ahead of the other, so it converges after no
more passes. Its counter is then no higher, unless that of the other has started over on the way more often.
-/

namespace Rumour

open Rumour.Random

namespace Population

def Ahead (few many : Population) : Prop :=
  ∀ node, few.Infected node → many.Infected node

theorem Ahead.allInfected {few many : Population} (ahead : few.Ahead many) (sizes : many.size = few.size)
    (fewCounted : few.infected = few.flags.count true)
    (manyCounted : many.infected = many.flags.count true) (full : few.allInfected = true) :
    many.allInfected = true := by
  rw [allInfected_iff_of_counted fewCounted] at full
  rw [allInfected_iff_of_counted manyCounted]
  intro flag member
  obtain ⟨index, inside, same⟩ := Array.mem_iff_getElem.1 member
  have insideFew : index < few.flags.size := Nat.lt_of_lt_of_eq inside sizes
  have set : few.Infected { index } := by
    rw [infected_iff, Array.getElem?_eq_getElem insideFew]
    exact congrArg some (full _ (Array.getElem_mem insideFew))
  have kept := (infected_iff _ _).1 (ahead { index } set)
  rw [Array.getElem?_eq_getElem inside, same] at kept
  exact Option.some.inj kept

theorem Grown.allInfected {old population : Population} (grown : old.Grown population) (sound : old.Sound)
    (full : old.allInfected = true) : population.allInfected = true := by
  have ahead : old.Ahead population := by
    intro node infected
    rw [infected_iff] at infected ⊢
    exact grown.kept node.index infected
  exact ahead.allInfected grown.size sound.counted grown.counted full

end Population

/-! Passes that a course tells of -/

def RoundEvent.isRoundEnd : RoundEvent -> Bool
  | .roundEnded .. => true
  | .converged _ => false

def Course.passes (course : Course) : Nat :=
  course.events.countP RoundEvent.isRoundEnd

namespace Epidemic

open Rumour.Population

/-- Two epidemics that differ in their populations alone, one of which is ahead of the other. -/
structure Leading (parameters : Parameters) (few many : Epidemic) : Prop where
  framed : few.Framed parameters
  sized : many.population.size = parameters.size
  rest : many = { few with population := many.population }
  fewCounted : few.population.infected = few.population.flags.count true
  manyCounted : many.population.infected = many.population.flags.count true
  ahead : few.population.Ahead many.population

variable {parameters : Parameters} {few many : Epidemic}

theorem Leading.sizes (leading : Leading parameters few many) :
    many.population.size = few.population.size :=
  leading.sized.trans leading.framed.size.symm

theorem Leading.allInfected (leading : Leading parameters few many)
    (full : few.population.allInfected = true) : many.population.allInfected = true :=
  leading.ahead.allInfected leading.sizes leading.fewCounted leading.manyCounted full

theorem Leading.inWord (leading : Leading parameters few many) : Leading parameters few.inWord many.inWord :=
  { leading with
    framed := { leading.framed with }
    rest := by rw [Epidemic.inWord, Epidemic.inWord, leading.rest] }

section

variable {patience passes rounds made : Nat} {events : List RoundEvent} {epidemic : Epidemic} {stream : Stream}
  {next : Epidemic × Stream}

end

def onePeer : Parameters :=
  { size := 4, peers := 1, policy := .uniform, maxRounds := some 9 }

def onePeerFrom (population : Population) (round : Nat) : Epidemic :=
  { parameters := onePeer
    population
    round
    nodeCount := 4
    seedCount := 0
    converged := false }

end Epidemic

end Rumour

import Rumour.Proofs.Binary.Order
import Rumour.Proofs.Plan

set_option autoImplicit false

/-!
Which plans are accepted. A plan is accepted just when the parameters of each of its sizes are, and these are told
apart by the largest size, the peers and, where there are seeds, the bias.
-/

namespace Rumour

open Rumour.Binary

namespace Parameters

theorem checkPolicy_ofSeedCount (seeds : Nat) (bias : Binary64) :
    checkPolicy (Policy.ofSeedCount seeds bias) = .ok () ↔ seeds = 0 ∨ bias.inUnitInterval = true := by
  by_cases unseeded : seeds = 0 <;> by_cases unit : bias.inUnitInterval = true <;>
    simp [Policy.ofSeedCount, checkPolicy, unseeded, unit]

end Parameters

namespace Plan

theorem parametersFor_valid_iff (plan : Plan) (size : Nat) :
    (∀ seeded, (plan.parametersFor size seeded).validate = .ok ()) ↔
      1 ≤ size ∧ size ≤ NodeId.greatestIndex ∧ 1 ≤ plan.peers ∧
        (plan.seeds = 0 ∨ plan.seedBias.inUnitInterval = true) := by
  have plain : Parameters.checkPolicy .uniform = .ok () := rfl
  simp only [Bool.forall_bool, Parameters.validate_eq_ok_iff, parametersFor, policyFor, plain, if_true,
    Bool.false_eq_true, if_false, Parameters.checkPolicy_ofSeedCount, Nat.one_le_iff_ne_zero]
  tauto

theorem sizes_le_iff (sizes : Sizes) (bound : Nat) :
    (∀ size ∈ sizes.toList, size ≤ bound) ↔ ∀ last, sizes.toList.getLast? = some last → last ≤ bound := by
  constructor
  · exact fun below last ends => below last (List.mem_of_getLast? ends)
  · intro below size member
    have ends := List.getLast?_eq_some_getLast (List.ne_nil_of_mem member)
    have final := below _ ends
    rw [Sizes.getLast?_toList] at ends
    exact Nat.le_trans (Sizes.le_last member ends) final

section

variable {plan : Plan} (steps : 1 ≤ plan.sizes.step) (someSize : plan.sizes.start < plan.sizes.stop)

include steps someSize

/-- The first and the last size are among the sizes, and they are the ends that are looked at. -/
theorem validate_iff_each (origin : 1 ≤ plan.sizes.start) (repeats : 1 ≤ plan.repetitions)
    (threads : plan.threads ≠ some 0) :
    plan.validate = .ok () ↔
      ∀ size ∈ plan.sizes.toList, ∀ seeded, (plan.parametersFor size seeded).validate = .ok () := by
  constructor
  · exact fun accepted size member => parametersFor_valid accepted member
  · intro each
    have listed := ends_subset (Sizes.count_pos steps someSize)
    rw [validate_eq_ok_iff, checkSizes_eq_ok_iff]
    exact ⟨by omega, by omega, someSize, by omega, threads, fun size looked => each size (listed looked)⟩

theorem each_valid_iff (origin : 1 ≤ plan.sizes.start) :
    (∀ size ∈ plan.sizes.toList, ∀ seeded, (plan.parametersFor size seeded).validate = .ok ()) ↔
      1 ≤ plan.peers ∧ (∀ size ∈ plan.sizes.toList, size ≤ NodeId.greatestIndex) ∧
        (plan.seeds = 0 ∨ plan.seedBias.inUnitInterval = true) := by
  simp only [parametersFor_valid_iff]
  constructor
  · intro each
    obtain ⟨_, _, peers, bias⟩ := each _ (Sizes.start_mem_toList (Sizes.count_pos steps someSize))
    exact ⟨peers, fun size member => (each size member).2.1, bias⟩
  · rintro ⟨peers, below, bias⟩ size member
    exact ⟨Nat.le_trans origin (Sizes.start_le member), below size member, peers, bias⟩

end

/-- What a plan has to be to be accepted, in terms of its fields. Of the sizes it is enough that the last one
fits, and the bias does not matter where there are no seeds. The sizes between the ends are not looked at, yet the
parameters of all of them are valid just when the plan is accepted. -/
theorem validate_exact (plan : Plan) :
    (plan.validate = .ok () ↔
      1 ≤ plan.sizes.step ∧ 1 ≤ plan.sizes.start ∧ plan.sizes.start < plan.sizes.stop ∧
        1 ≤ plan.repetitions ∧ plan.threads ≠ some 0 ∧ 1 ≤ plan.peers ∧
        (∀ size ∈ plan.sizes.toList, size ≤ 2 ^ 32 - 1) ∧
        (plan.seeds = 0 ∨
          plan.seedBias.isNaN = false ∧ 0 ≤ plan.seedBias.value ∧ plan.seedBias.value ≤ 1)) ∧
    ((∀ size ∈ plan.sizes.toList, size ≤ 2 ^ 32 - 1) ↔
      ∀ last, plan.sizes.toList.getLast? = some last → last ≤ 2 ^ 32 - 1) ∧
    (1 ≤ plan.sizes.step → 1 ≤ plan.sizes.start ∧ plan.sizes.start < plan.sizes.stop →
      1 ≤ plan.repetitions → plan.threads ≠ some 0 →
      (plan.validate = .ok () ↔
        ∀ size ∈ plan.sizes.toList, ∀ seeded, (plan.parametersFor size seeded).validate = .ok ())) := by
  refine ⟨?_, sizes_le_iff plan.sizes _, fun steps range repeats threads => ?_⟩
  · rw [← Binary64.inUnitInterval_iff]
    constructor
    · intro accepted
      obtain ⟨step, origin, someSize, repetitions, threads, _⟩ := plan.validate_eq_ok_iff.1 accepted
      have steps := Nat.pos_of_ne_zero step
      have start := Nat.pos_of_ne_zero origin
      have repeats := Nat.pos_of_ne_zero repetitions
      have each := (validate_iff_each steps someSize start repeats threads).1 accepted
      exact ⟨steps, start, someSize, repeats, threads, (each_valid_iff steps someSize start).1 each⟩
    · rintro ⟨steps, start, someSize, repeats, threads, fields⟩
      have each := (each_valid_iff steps someSize start).2 fields
      exact (validate_iff_each steps someSize start repeats threads).2 each
  · exact validate_iff_each steps range.2 range.1 repeats threads

/-- A stop far above the greatest index behind a last size that is just the greatest, and a bias that is no number
but has no seeds to be for. -/
def farStop : Plan :=
  { Plan.standard with
    sizes := { start := 1, stop := 8589934589, step := 4294967294 }
    seeds := 0
    seedBias := .nan }

theorem farStop_exact :
    farStop.seedBias.isNaN = true ∧ farStop.sizes.toList = [1, 2 ^ 32 - 1] ∧ farStop.validate = .ok () ∧
      ∀ seeded, (farStop.parametersFor (2 ^ 32 - 1) seeded).validate = .ok () := by
  have missing : farStop.seedBias.isNaN = true := by decide
  have listed : farStop.sizes.toList = [1, 2 ^ 32 - 1] := by
    rw [Sizes.toList_eq_range']
    decide
  obtain ⟨fields, ends, each⟩ := validate_exact farStop
  have fits : ∀ size ∈ farStop.sizes.toList, size ≤ 2 ^ 32 - 1 := ends.2 (by simp [listed])
  have accepted : farStop.validate = .ok () :=
    fields.2 ⟨by decide, by decide, by decide, by decide, by decide, by decide, fits, .inl rfl⟩
  refine ⟨missing, listed, accepted, ?_⟩
  exact (each (by decide) (by decide) (by decide) (by decide)).1 accepted (2 ^ 32 - 1) (by simp [listed])

end Plan

end Rumour

import Rumour.Random.Stream

set_option autoImplicit false

/-!
Siblings. The seed of a child is one word of its parent mixed with an offset, so the next child of the parent is seeded
from its next word. Over one word distinct offsets give distinct seeds. Over two words they need not: each offset has
one twin, at which the later child is given the same seed.
-/

namespace Rumour.Random.Stream

/-- Two children of a parent, one after the other. -/
def siblings (first second : UInt64) : StateM Stream (Stream × Stream) := do
  let elder <- child first
  let younger <- child second
  pure (elder, younger)

/-- What takes the spreading back, which is a product with an odd number. -/
def offsetGather : UInt64 := 0xf1de83e19937733d

/-- The offset at which a later child has the seed of an earlier one. -/
def twin (stream later : Stream) (offset : UInt64) : UInt64 :=
  (later.word ^^^ stream.childSeed offset) * offsetGather

theorem mul_offsetSpread_eq_iff (offset word : UInt64) :
    offset * offsetSpread = word ↔ offset = word * offsetGather := by
  have gathers : offsetSpread * offsetGather = 1 := by decide
  have spreads : offsetGather * offsetSpread = 1 := by decide
  constructor
  · rintro rfl
    rw [UInt64.mul_assoc, gathers, UInt64.mul_one]
  · rintro rfl
    rw [UInt64.mul_assoc, spreads, UInt64.mul_one]

theorem childSeed_eq_iff (stream later : Stream) (first second : UInt64) :
    stream.childSeed first = later.childSeed second ↔ second = stream.twin later first := by
  rw [twin, ← mul_offsetSpread_eq_iff]
  constructor
  · intro same
    rw [same, childSeed, ← UInt64.xor_assoc, UInt64.xor_self, UInt64.zero_xor]
  · intro mixed
    change _ = later.word ^^^ second * offsetSpread
    rw [mixed, ← UInt64.xor_assoc, UInt64.xor_self, UInt64.zero_xor]

theorem childSeed_same_offset (stream later : Stream) (offset : UInt64) :
    stream.childSeed offset = later.childSeed offset ↔ stream.word = later.word :=
  UInt64.xor_left_inj _

theorem twin_eq_self_iff (stream later : Stream) (offset : UInt64) :
    stream.twin later offset = offset ↔ stream.word = later.word := by
  rw [eq_comm, ← childSeed_eq_iff, childSeed_same_offset]

/-- Of two children of a parent, the later one has the seed of the earlier one just at the twin of its offset. The
twin is another offset, unless the two words that the parent gave are the same; so just then distinct offsets are
enough for distinct seeds. Over one and the same word they always are. -/
theorem siblings_seeds (stream : Stream) :
    (∀ first second, siblings first second stream =
      ((ofSeed (stream.childSeed first), ofSeed (stream.advance.childSeed second)), stream.advance.advance)) ∧
    (∀ first second, stream.childSeed first = stream.advance.childSeed second ↔
      second = stream.twin stream.advance first) ∧
    (∀ offset, stream.twin stream.advance offset = offset ↔ stream.word = stream.advance.word) ∧
    ((∀ first second, first ≠ second → stream.childSeed first ≠ stream.advance.childSeed second) ↔
      stream.word = stream.advance.word) ∧
    ∀ first second, first ≠ second → stream.childSeed first ≠ stream.childSeed second := by
  refine ⟨fun _ _ => rfl, stream.childSeed_eq_iff stream.advance, stream.twin_eq_self_iff stream.advance, ?_, ?_⟩
  next =>
    constructor
    · intro apart
      -- The twin of any offset has the same seed, so it cannot be another offset.
      have same := (stream.childSeed_eq_iff stream.advance 0 _).2 rfl
      have self : stream.twin stream.advance 0 = 0 :=
        Decidable.not_not.1 fun other => apart 0 _ (Ne.symm other) same
      exact (stream.twin_eq_self_iff stream.advance 0).1 self
    · intro words first second distinct same
      refine distinct ?_
      rw [(stream.childSeed_eq_iff stream.advance first second).1 same]
      exact ((stream.twin_eq_self_iff stream.advance first).2 words).symm
  next =>
    intro first second distinct same
    refine distinct ?_
    rw [(stream.childSeed_eq_iff stream first second).1 same]
    exact ((stream.twin_eq_self_iff stream first).2 rfl).symm

/-- The stream of seed one has children without a distinct seed, since its first two words differ; over its first word
the same two offsets give distinct seeds. -/
theorem seedOne_seeds :
    (ofSeed 1).word ≠ (ofSeed 1).advance.word ∧
      (¬ ∀ first second, first ≠ second → (ofSeed 1).childSeed first ≠ (ofSeed 1).advance.childSeed second) ∧
      (ofSeed 1).childSeed 0 ≠ (ofSeed 1).childSeed 1210355203355001263 := by
  have words : (ofSeed 1).word ≠ (ofSeed 1).advance.word := by decide
  obtain ⟨_, _, _, apart, sameWord⟩ := siblings_seeds (ofSeed 1)
  exact ⟨words, mt apart.1 words, sameWord 0 1210355203355001263 (by decide)⟩

/-- Two children of the stream of seed one, at distinct offsets, are one and the same stream. -/
theorem seedOne_twins :
    (0 : UInt64) ≠ 1210355203355001263 ∧
      (ofSeed 1).childSeed 0 = (ofSeed 1).advance.childSeed 1210355203355001263 ∧
      (siblings 0 1210355203355001263 (ofSeed 1)).1.1 = (siblings 0 1210355203355001263 (ofSeed 1)).1.2 := by
  decide

end Rumour.Random.Stream

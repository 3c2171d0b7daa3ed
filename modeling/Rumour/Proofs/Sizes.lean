import Mathlib.Data.List.Sort
import Rumour.Sizes

set_option autoImplicit false

/-!
The sizes of a range. Stepping yields as many sizes as the closed form counts, and they are the numbers from
the start below the stop that lie a whole number of steps behind the start. Words of 64 bits are enough for it
(`stepping_exact`).
-/

namespace Rumour.Sizes

/-- The numbers below the stop that lie a whole number of steps behind the start, in ascending order. -/
def grid (sizes : Sizes) : List Nat :=
  (List.range sizes.stop).filter fun size =>
    sizes.start ≤ size && (size - sizes.start) % sizes.step = 0

def onFrom (sizes : Sizes) (size : Nat) : Sizes :=
  { sizes with start := size }

theorem count_eq_zero {sizes : Sizes} (noneBelow : sizes.stop ≤ sizes.start) : sizes.count = 0 := by
  simp [count, noneBelow]

theorem count_onFrom {sizes : Sizes} {size : Nat} (positive : 0 < sizes.step) (below : size < sizes.stop) :
    (sizes.onFrom size).count = (sizes.onFrom (size + sizes.step)).count + 1 := by
  by_cases nextBelow : size + sizes.step < sizes.stop
  next =>
    have distance : sizes.stop - size + (sizes.step - 1) =
        sizes.stop - (size + sizes.step) + (sizes.step - 1) + sizes.step := by omega
    simp only [count, onFrom, Nat.not_le.2 below, Nat.not_le.2 nextBelow, Nat.ne_of_gt positive,
      decide_false, Bool.or_self, Bool.false_eq_true, if_false]
    rw [distance, Nat.add_div_right _ positive]
  next =>
    have noneLater : (sizes.onFrom (size + sizes.step)).count = 0 :=
      count_eq_zero (Nat.not_lt.1 nextBelow)
    rw [noneLater]
    simp only [count, onFrom, Nat.not_le.2 below, Nat.ne_of_gt positive, decide_false, Bool.or_self,
      Bool.false_eq_true, if_false]
    exact Nat.div_eq_of_lt_le (by omega) (by omega)

theorem lt_count_iff {sizes : Sizes} (positive : 0 < sizes.step) (index : Nat) :
    index < sizes.count ↔ sizes.start + sizes.step * index < sizes.stop := by
  simp only [count]
  split
  next noneLeft =>
    simp only [Bool.or_eq_true, decide_eq_true_eq] at noneLeft
    have someStep : 0 ≤ sizes.step * index := Nat.zero_le _
    omega
  next someLeft =>
    simp only [Bool.or_eq_true, decide_eq_true_eq, not_or] at someLeft
    rw [Nat.lt_iff_add_one_le, Nat.le_div_iff_mul_le positive, Nat.add_mul, Nat.one_mul,
      Nat.mul_comm index]
    omega

theorem count_pos {sizes : Sizes} (positive : 0 < sizes.step) (someSize : sizes.start < sizes.stop) :
    0 < sizes.count :=
  (lt_count_iff positive 0).2 (by simpa using someSize)

theorem count_le (sizes : Sizes) : sizes.count ≤ sizes.stop - sizes.start := by
  by_cases still : sizes.step = 0
  next => simp [count, still]
  next =>
    -- The size that many steps behind the start would lie beyond the stop.
    have positive := Nat.pos_of_ne_zero still
    have steps := Nat.le_mul_of_pos_left (sizes.stop - sizes.start) positive
    have beyond := mt (lt_count_iff positive (sizes.stop - sizes.start)).1 (by omega)
    exact Nat.not_lt.1 beyond

theorem stepFrom_eq_take (sizes : Sizes) (limit size : Nat) :
    (sizes.stepFrom limit size #[]).toList =
      (List.range' size (sizes.onFrom size).count sizes.step).take limit := by
  induction limit generalizing size with
  | zero => simp [stepFrom]
  | succ limit ih =>
      by_cases stepping : 0 < sizes.step ∧ size < sizes.stop
      next =>
        obtain ⟨positive, below⟩ := stepping
        have rest := ih (size + sizes.step)
        simp only [stepFrom, positive, below, decide_true, Bool.and_self, if_true]
        rw [stepFrom_eq, count_onFrom positive below, List.range'_succ, List.take_succ_cons]
        simpa using rest
      next =>
        have noneCounted : (sizes.onFrom size).count = 0 := by
          have finished : sizes.step = 0 ∨ sizes.stop ≤ size := by omega
          rcases finished with still | passed
          · simp [count, onFrom, still]
          · exact count_eq_zero passed
        simp only [stepFrom, Bool.and_eq_true, decide_eq_true_eq]
        rw [if_neg stepping, noneCounted]
        rfl

theorem toList_eq_range' (sizes : Sizes) :
    sizes.toList = List.range' sizes.start sizes.count sizes.step := by
  rw [toList, first, stepFrom_eq_take, List.take_of_length_le]
  · rfl
  · rw [List.length_range']
    exact sizes.count_le

theorem first_eq_take (sizes : Sizes) (limit : Nat) : sizes.first limit = sizes.toList.take limit := by
  rw [toList_eq_range']
  exact sizes.stepFrom_eq_take limit sizes.start

@[simp] theorem length_toList (sizes : Sizes) : sizes.toList.length = sizes.count := by
  simp [toList_eq_range']

theorem mem_toList_iff {sizes : Sizes} (positive : 0 < sizes.step) (size : Nat) :
    size ∈ sizes.toList ↔ ∃ index, size = sizes.start + sizes.step * index ∧ size < sizes.stop := by
  rw [toList_eq_range', List.mem_range']
  constructor
  · rintro ⟨index, counted, rfl⟩
    exact ⟨index, rfl, (lt_count_iff positive index).1 counted⟩
  · rintro ⟨index, rfl, below⟩
    exact ⟨index, (lt_count_iff positive index).2 below, rfl⟩

theorem mem_grid_iff {sizes : Sizes} (size : Nat) :
    size ∈ sizes.grid ↔ ∃ index, size = sizes.start + sizes.step * index ∧ size < sizes.stop := by
  simp only [grid, List.mem_filter, List.mem_range, Bool.and_eq_true, decide_eq_true_eq]
  constructor
  · rintro ⟨below, fromStart, whole⟩
    obtain ⟨index, steps⟩ := Nat.dvd_of_mod_eq_zero whole
    exact ⟨index, by omega, below⟩
  · rintro ⟨index, rfl, below⟩
    exact ⟨below, by omega, by simp⟩

theorem toList_ascending {sizes : Sizes} (positive : 0 < sizes.step) :
    sizes.toList.Pairwise (· < ·) := by
  rw [toList_eq_range']
  exact List.pairwise_lt_range' sizes.step positive

theorem grid_ascending (sizes : Sizes) : sizes.grid.Pairwise (· < ·) :=
  List.pairwise_lt_range.filter _

theorem toList_eq_grid {sizes : Sizes} (positive : 0 < sizes.step) : sizes.toList = sizes.grid := by
  apply (toList_ascending positive).eq_of_mem_iff sizes.grid_ascending
  intro size
  rw [mem_toList_iff positive, mem_grid_iff]

theorem start_mem_toList {sizes : Sizes} (someSize : 0 < sizes.count) : sizes.start ∈ sizes.toList := by
  rw [toList_eq_range', List.mem_range']
  exact ⟨0, someSize, rfl⟩

theorem last_mem_toList {sizes : Sizes} {last : Nat} (ends : sizes.last? = some last) : last ∈ sizes.toList := by
  simp only [last?] at ends
  split at ends
  next => cases ends
  next someSize =>
    cases ends
    have counted : sizes.count ≠ 0 := by simpa [isEmpty] using someSize
    rw [toList_eq_range', List.mem_range']
    exact ⟨sizes.count - 1, by omega, by rw [Nat.mul_comm]⟩

theorem le_last {sizes : Sizes} {size last : Nat} (member : size ∈ sizes.toList)
    (ends : sizes.last? = some last) : size ≤ last := by
  rw [toList_eq_range', List.mem_range'] at member
  obtain ⟨index, counted, rfl⟩ := member
  simp only [last?] at ends
  split at ends
  next => cases ends
  next =>
    cases ends
    have steps : sizes.step * index ≤ sizes.step * (sizes.count - 1) :=
      Nat.mul_le_mul_left _ (by omega)
    rw [Nat.mul_comm (sizes.count - 1)]
    omega

theorem start_le {sizes : Sizes} {size : Nat} (member : size ∈ sizes.toList) : sizes.start ≤ size := by
  rw [toList_eq_range', List.mem_range'] at member
  obtain ⟨index, _, rfl⟩ := member
  omega

theorem getElem?_toList (sizes : Sizes) (index size : Nat) :
    sizes.toList[index]? = some size ↔
      0 < sizes.step ∧ size = sizes.start + index * sizes.step ∧ size < sizes.stop := by
  rw [toList_eq_range']
  by_cases positive : 0 < sizes.step
  next =>
    simp only [List.getElem?_eq_some_iff, List.length_range', List.getElem_range', exists_prop,
      lt_count_iff positive, positive, true_and, Nat.mul_comm index]
    constructor
    · rintro ⟨below, rfl⟩
      exact ⟨rfl, below⟩
    · rintro ⟨rfl, below⟩
      exact ⟨below, rfl⟩
  next =>
    have still : sizes.step = 0 := by omega
    simp [count, still]

theorem getLast?_toList (sizes : Sizes) : sizes.toList.getLast? = sizes.last? := by
  rw [toList_eq_range', List.getLast?_eq_getElem?, List.length_range']
  cases counted : sizes.count with
  | zero => simp [last?, isEmpty, counted]
  | succ count => simp [last?, isEmpty, counted, Nat.mul_comm]

theorem isEmpty_iff (sizes : Sizes) : sizes.isEmpty = true ↔ sizes.toList = [] := by
  simp [isEmpty, toList_eq_range']

/-! Stepping in words of 64 bits -/

/-- Some sizes from one on, in words whose sum wraps around at the top. -/
def wordsFrom (step : UInt64) : Nat -> UInt64 -> List UInt64
  | 0, _ => []
  | count + 1, size => size :: wordsFrom step count (size + step)

/-- The sizes in words. Their number is settled beforehand, so that no sum behind the last one is taken up. -/
def words (sizes : Sizes) : List UInt64 :=
  wordsFrom (UInt64.ofNat sizes.step) sizes.count (UInt64.ofNat sizes.start)

theorem wordsFrom_toNat (step count size : Nat)
    (fits : ∀ index, index < count → size + step * index < UInt64.size) :
    (wordsFrom (UInt64.ofNat step) count (UInt64.ofNat size)).map UInt64.toNat =
      List.range' size count step := by
  induction count generalizing size with
  | zero => rfl
  | succ count ih =>
      have head : (UInt64.ofNat size).toNat = size :=
        UInt64.toNat_ofNat_of_lt' (fits 0 (Nat.zero_lt_succ count))
      have rest := ih (size + step) fun index within => by
        have later := fits (index + 1) (Nat.succ_lt_succ within)
        rw [Nat.mul_succ] at later
        omega
      rw [wordsFrom, ← UInt64.ofNat_add, List.map_cons, head, rest, List.range'_succ]

theorem words_toNat {sizes : Sizes} (fits : sizes.stop < UInt64.size) :
    sizes.words.map UInt64.toNat = sizes.toList := by
  rw [words, toList_eq_range']
  apply wordsFrom_toNat
  intro index counted
  by_cases still : sizes.step = 0
  next => simp [count, still] at counted
  next => exact Nat.lt_trans ((lt_count_iff (Nat.pos_of_ne_zero still) index).1 counted) fits

/-- Stepping yields the numbers below the stop that are the start and a whole number of steps, each once and in
ascending order, and then it ends; a step of zero yields none. While the stop fits 64 bits, words that wrap
around yield the same. The closed form is the number of sizes, and it tells whether there is one and which is the
last. -/
theorem stepping_exact (sizes : Sizes) :
    (∀ index size, sizes.toList[index]? = some size ↔
      0 < sizes.step ∧ size = sizes.start + index * sizes.step ∧ size < sizes.stop) ∧
    (sizes.step = 0 → sizes.toList = []) ∧
    sizes.toList.Pairwise (· < ·) ∧
    (∀ limit, sizes.first limit = sizes.toList.take limit) ∧
    (sizes.stop < UInt64.size → sizes.words.map UInt64.toNat = sizes.toList) ∧
    sizes.toList.length = sizes.count ∧ sizes.count ≤ sizes.stop - sizes.start ∧
    (sizes.isEmpty = true ↔ sizes.toList = []) ∧
    sizes.toList.getLast? = sizes.last? ∧
    (sizes.toList ≠ [] → sizes.last? = some (sizes.start + (sizes.count - 1) * sizes.step)) := by
  have noneStill : sizes.step = 0 → sizes.toList = [] := by
    intro still
    simp [toList_eq_range', count, still]
  refine ⟨sizes.getElem?_toList, noneStill, ?_, sizes.first_eq_take, words_toNat, sizes.length_toList,
    sizes.count_le, sizes.isEmpty_iff, sizes.getLast?_toList, ?_⟩
  · by_cases still : sizes.step = 0
    · simp [noneStill still]
    · exact toList_ascending (Nat.pos_of_ne_zero still)
  · intro someSize
    have notEmpty := mt sizes.isEmpty_iff.1 someSize
    simp [last?, notEmpty]

/-- Sizes whose next one would not fit 64 bits. -/
def topSizes : Sizes :=
  { start := 18446744073709551605, stop := 18446744073709551615, step := 7 }

theorem topSizes_exact :
    topSizes.toList = [18446744073709551605, 18446744073709551612] ∧ topSizes.count = 2 ∧
      topSizes.stop < UInt64.size ∧ topSizes.words.map UInt64.toNat = topSizes.toList ∧
      topSizes.last? = some 18446744073709551612 := by
  have listed : topSizes.toList = [18446744073709551605, 18446744073709551612] := by decide
  have fits : topSizes.stop < UInt64.size := by decide
  obtain ⟨_, _, _, _, inWords, number, _, _, ends, _⟩ := stepping_exact topSizes
  rw [listed] at number ends
  exact ⟨listed, number.symm, fits, inWords fits, ends.symm⟩

end Rumour.Sizes

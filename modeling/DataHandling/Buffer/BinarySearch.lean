import DataHandling.Buffer.LatencyBuffer
import DataHandling.Buffer.QueueIterator

/-! `BinarySearchQueueModel`: the ring with a search by timestamp. The search keeps the
element above the first candidate slot and below every slot after the last one, in 32-bit
arithmetic that stays inside the candidates at every ring size. -/

namespace DataHandling
open MachineInt Cyclic Ordered ReadoutType

structure BinarySearchQueueModel (T : Type) extends IterableQueueModel T

namespace BinarySearchQueueModel
open IterableQueueModel

variable {T : Type}

section Search
variable [ReadoutType T] (q : IterableQueueModel T) (element : T)

def candidateDistance (startIndex endIndex : ℕ) : ℕ :=
  if startIndex ≤ endIndex then endIndex - startIndex
  else u32 (q.size + endIndex + 4294967296 - startIndex)

def wrapIndex (index : ℕ) : ℕ := if index ≥ q.size then index - q.size else index

def middleIndex (startIndex diff : ℕ) : ℕ := wrapIndex q (u32 (startIndex + u32 (diff + 1) / 2))

/-- The index one up from `middle_index`, at the end of an unsuccessful search. -/
def oneUp (middle : ℕ) : ℕ := wrapIndex q (u32 (middle + 1))

def oneDown (middle : ℕ) : ℕ := if middle ≠ 0 then middle - 1 else q.size - 1

def searchLoop : ℕ → ℕ → ℕ → Option ℕ
  | 0, _, _ => none
  | fuel + 1, startIndex, endIndex =>
    let diff := candidateDistance q startIndex endIndex
    let middle := middleIndex q startIndex diff
    (q.records middle).bind fun between =>
      if getTimestamp element = getTimestamp between then some middle
      else if diff = 0 then
        if lt element between then some middle else some (oneUp q middle)
      else if lt element between then
        searchLoop fuel startIndex (oneDown q middle)
      else searchLoop fuel middle endIndex

/-- The iterator index that `lower_bound` returns. The loop halves the candidates, so one
iteration for each slot is more than it takes. -/
def search : Option ℕ :=
  if q.readIndex = q.writeIndex then some endIndex
  else
    let lastIndex := if q.writeIndex = 0 then q.size - 1 else q.writeIndex - 1
    (q.records q.readIndex).bind fun left =>
      if lt element left then some endIndex
      else searchLoop q element q.size q.readIndex lastIndex

end Search

def lowerBound [ReadoutType T] (q : BinarySearchQueueModel T) (element : T) (_withErrors : Bool) :
    Option ℕ :=
  search q.toIterableQueueModel element

section Arithmetic
variable {q : IterableQueueModel T} {i j k : ℕ}

theorem candidateDistance_slot (hread : q.readIndex < q.size) (hsize : q.size < 4294967296)
    (hij : i ≤ j) (hj : j < q.size) :
    candidateDistance q (slot q.size q.readIndex i) (slot q.size q.readIndex j) = j - i := by
  unfold candidateDistance u32 slot
  split_ifs <;> omega

/-- The middle is one of the candidates after the first, even where the 32-bit sum wraps. -/
theorem middleIndex_slot (hread : q.readIndex < q.size) (hsize : q.size < 4294967296)
    (hij : i < j) (hj : j < q.size) :
    ∃ m, i < m ∧ m ≤ j ∧
      middleIndex q (slot q.size q.readIndex i) (j - i) = slot q.size q.readIndex m := by
  have hhalf : 1 ≤ (j - i + 1) / 2 ∧ (j - i + 1) / 2 ≤ j - i := by omega
  rw [middleIndex, u32_of_lt (n := j - i + 1) (by omega)]
  generalize (j - i + 1) / 2 = half at hhalf
  refine ⟨distance q.size q.readIndex
    (wrapIndex q (u32 (slot q.size q.readIndex i + half))), ?_, ?_, ?_⟩
  · unfold wrapIndex u32 slot distance
    split_ifs <;> omega
  · unfold wrapIndex u32 slot distance
    split_ifs <;> omega
  · unfold wrapIndex u32 slot distance
    split_ifs <;> omega

theorem middleIndex_zero (hread : q.readIndex < q.size) (hsize : q.size < 4294967296)
    (hi : i < q.size) :
    middleIndex q (slot q.size q.readIndex i) 0 = slot q.size q.readIndex i := by
  unfold middleIndex wrapIndex u32 slot
  split_ifs <;> omega

theorem oneUp_slot (hread : q.readIndex < q.size) (hsize : q.size < 4294967296)
    (hi : i < q.size) :
    oneUp q (slot q.size q.readIndex i) = slot q.size q.readIndex (i + 1) := by
  unfold oneUp wrapIndex u32 slot
  split_ifs <;> omega

theorem oneDown_slot (hread : q.readIndex < q.size) (hi : i + 1 < q.size) :
    oneDown q (slot q.size q.readIndex (i + 1)) = slot q.size q.readIndex i := by
  unfold oneDown slot
  split_ifs <;> omega

end Arithmetic

section Correctness
variable [ReadoutType T] {q : IterableQueueModel T} {xs : List T} {element : T}
  (h : Represents q xs) (horder : TimestampConsistent T) (hsorted : StrictlyIncreasing tsNat xs)
include h horder hsorted

/-- While the searched timestamp lies between the first candidate and the slots after the
last one, the loop ends at the lower bound. -/
theorem searchLoop_eq (fuel : ℕ) {i j : ℕ} (hij : i ≤ j) (hj : j < xs.length)
    (hfuel : j - i < fuel) (hfirst : tsNat xs[i] ≤ tsNat element)
    (hlast : ∀ k (hk : k < xs.length), j < k → tsNat element < tsNat xs[k]) :
    searchLoop q element fuel (slot q.size q.readIndex i) (slot q.size q.readIndex j) =
      some (slot q.size q.readIndex (Ordered.lowerBound tsNat xs (tsNat element))) := by
  have hlen := h.length_lt
  have hread := h.read_lt
  have hsize := h.size_lt
  induction fuel generalizing i j with
  | zero => omega
  | succ fuel ih =>
    have hdiff := candidateDistance_slot hread hsize hij (Nat.lt_trans hj hlen)
    -- an element found at its own timestamp is the lower bound
    have hfound : ∀ m (hm : m < xs.length), getTimestamp element = getTimestamp xs[m] →
        m = Ordered.lowerBound tsNat xs (tsNat element) := by
      intro m hm heq
      have hts := (timestamp_eq_iff _ _).mp heq
      refine (lowerBound_eq hm.le (fun k hkm hk => ?_) fun _ => hts.le).symm
      rw [hts]
      exact hsorted.key_lt hkm hm
    rw [searchLoop]
    simp only [hdiff]
    rcases Nat.eq_or_lt_of_le hij with rfl | hlt
    · -- one candidate is left
      rw [Nat.sub_self, middleIndex_zero hread hsize (Nat.lt_trans hj hlen), h.stored i hj,
        Option.bind_some]
      by_cases heq : getTimestamp element = getTimestamp xs[i]
      · rw [if_pos heq, ← hfound i hj heq]
      · have hne : tsNat element ≠ tsNat xs[i] := fun hts => heq ((timestamp_eq_iff _ _).mpr hts)
        have hup : Ordered.lowerBound tsNat xs (tsNat element) = i + 1 := by
          refine lowerBound_eq hj (fun k hki hk => ?_) fun hk => (hlast _ hk (by omega)).le
          have hle := hsorted.key_le (Nat.lt_succ_iff.mp hki) hj
          omega
        rw [if_neg heq, if_pos rfl, horder.lt_eq_false (by omega : tsNat xs[i] < tsNat element),
          if_neg Bool.false_ne_true, oneUp_slot hread hsize (Nat.lt_trans hj hlen), hup]
    · obtain ⟨m, him, hmj, hmiddle⟩ := middleIndex_slot hread hsize hlt (Nat.lt_trans hj hlen)
      have hm : m < xs.length := by omega
      rw [hmiddle, h.stored m hm, Option.bind_some, if_neg (show j - i ≠ 0 by omega)]
      by_cases heq : getTimestamp element = getTimestamp xs[m]
      · rw [if_pos heq, ← hfound m hm heq]
      rw [if_neg heq]
      have hne : tsNat element ≠ tsNat xs[m] := fun hts => heq ((timestamp_eq_iff _ _).mpr hts)
      by_cases hless : tsNat element < tsNat xs[m]
      · -- the candidates before the middle
        obtain ⟨m, rfl⟩ : ∃ m', m = m' + 1 := ⟨m - 1, by omega⟩
        rw [horder.lt_eq_true hless, if_pos rfl, oneDown_slot hread (by omega)]
        refine ih (by omega) (by omega) (by omega) hfirst fun k hk hmk => ?_
        exact hless.trans_le (hsorted.key_le hmk hk)
      · -- the candidates from the middle on
        rw [horder.lt_eq_false (by omega : tsNat xs[m] < tsNat element), if_neg Bool.false_ne_true]
        exact ih hmj hj (by omega) (Nat.not_lt.mp hless) hlast

/-- The search on a non-empty ring: `end()` for an element that is less than the front, the
lower bound otherwise. -/
theorem search_eq (hne : xs ≠ []) :
    search q element =
      if lt element (xs.head hne) then some endIndex
      else some (slot q.size q.readIndex (Ordered.lowerBound tsNat xs (tsNat element))) := by
  have hpos := List.length_pos_iff.mpr hne
  have hrw : q.readIndex ≠ q.writeIndex := fun heq =>
    hne (h.readIndex_eq_writeIndex_iff.mp heq)
  have hfront := h.stored 0 hpos
  rw [slot_zero h.read_lt] at hfront
  rw [search, if_neg hrw]
  dsimp only
  rw [hfront, Option.bind_some, h.back_slot hne, List.head_eq_getElem]
  cases hless : lt element xs[0] with
  | true => rfl
  | false =>
    rw [if_neg Bool.false_ne_true, if_neg Bool.false_ne_true]
    have hlen := h.length_lt
    have hloop := searchLoop_eq h horder hsorted q.size (Nat.zero_le (xs.length - 1)) (by omega)
      (by omega) (horder.le_of_lt_eq_false hless) fun k hk hlast => by omega
    rwa [slot_zero h.read_lt] at hloop

/-- A good result of the search is the lower bound, which is then an element at or behind
the front. -/
theorem search_good {it : ℕ} (hsearch : search q element = some it) (hgood : q.good it = true) :
    At q xs it (Ordered.lowerBound tsNat xs (tsNat element)) ∧
      Ordered.lowerBound tsNat xs (tsNat element) < xs.length ∧
        ∀ hne : xs ≠ [], tsNat (xs.head hne) ≤ tsNat element := by
  have hbad : some it ≠ some endIndex := by
    intro heq
    cases heq
    rw [good_endIndex] at hgood
    cases hgood
  by_cases hne : xs = []
  · rw [search, if_pos (h.readIndex_eq_writeIndex_iff.mpr hne)] at hsearch
    exact absurd hsearch.symm hbad
  · rw [search_eq h horder hsorted hne] at hsearch
    split_ifs at hsearch with hless
    · exact absurd hsearch.symm hbad
    · have hle : Ordered.lowerBound tsNat xs (tsNat element) ≤ xs.length := lowerBound_le_length
      have hat := h.at_slot hle
      rw [Option.some.inj hsearch] at hat
      exact ⟨hat, (h.good_iff hat).mp hgood, fun _ =>
        horder.le_of_lt_eq_false (Bool.eq_false_iff.mpr hless)⟩

theorem search_isSome : (search q element).isSome := by
  by_cases hne : xs = []
  · rw [search, if_pos (h.readIndex_eq_writeIndex_iff.mpr hne)]
    rfl
  · rw [search_eq h horder hsorted hne]
    split_ifs <;> rfl

end Correctness

end BinarySearchQueueModel
end DataHandling

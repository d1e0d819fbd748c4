import DataHandling.Buffer.FixedRate
import DataHandling.Chunk

/-! The searches of the two rings at any pair of indices, whatever the free slots hold: the
binary search ends at the lower bound, and the computed index agrees with it. -/

namespace DataHandling.IterableQueueModel
open Cyclic

variable {T : Type}

def onlyLive (q : IterableQueueModel T) : IterableQueueModel T :=
  { q with records := fun j => if j ∈ q.liveSlots then q.records j else none }

/-- The live slots hold `xs`. -/
structure LiveContent (q : IterableQueueModel T) (xs : List T) : Prop where
  two_le_size : 2 ≤ q.size
  size_lt : q.size < 4294967296
  read_lt : q.readIndex < q.size
  write_lt : q.writeIndex < q.size
  stored : q.liveSlots.map q.records = xs.map some

theorem records_onlyLive {q : IterableQueueModel T} {j : ℕ} {x : T}
    (h : q.onlyLive.records j = some x) : q.records j = some x := by
  dsimp only [onlyLive] at h
  split_ifs at h
  exact h

theorem LiveContent.length_eq {q : IterableQueueModel T} {xs : List T} (h : LiveContent q xs) :
    xs.length = distance q.size q.readIndex q.writeIndex := by
  have hlen := congrArg List.length h.stored
  rw [List.length_map, List.length_map, liveSlots, List.length_map, List.length_range] at hlen
  exact hlen.symm

theorem LiveContent.onlyLive {q : IterableQueueModel T} {xs : List T} (h : LiveContent q xs) :
    Represents q.onlyLive xs where
  two_le_size := h.two_le_size
  size_lt := h.size_lt
  read_lt := h.read_lt
  length_lt := by
    rw [h.length_eq]
    exact distance_lt h.read_lt h.write_lt
  write_eq := by
    rw [h.length_eq]
    exact (slot_distance h.read_lt h.write_lt).symm
  stored := by
    intro i hi
    have hdist : i < distance q.size q.readIndex q.writeIndex := h.length_eq ▸ hi
    have hlive : slot q.size q.readIndex i ∈ q.liveSlots :=
      List.mem_map.mpr ⟨i, List.mem_range.mpr hdist, rfl⟩
    have hget := congrArg (·[i]?) h.stored
    simp only [liveSlots, List.getElem?_map, List.getElem?_range hdist,
      List.getElem?_eq_getElem hi, Option.map_some, Option.some.injEq] at hget
    exact (if_pos hlive).trans hget
  free := by
    intro j hj
    refine if_neg fun hlive => ?_
    obtain ⟨i, hi, rfl⟩ := List.mem_map.mp hlive
    rw [List.mem_range, ← h.length_eq] at hi
    exact hj i hi rfl

end DataHandling.IterableQueueModel

namespace DataHandling
open MachineInt Cyclic Ordered ReadoutType IterableQueueModel

variable {T : Type} [ReadoutType T]

namespace BinarySearchQueueModel

theorem searchLoop_of_onlyLive {q : IterableQueueModel T} {element : T} {fuel i j it : ℕ}
    (h : searchLoop q.onlyLive element fuel i j = some it) :
    searchLoop q element fuel i j = some it := by
  -- the index arithmetic reads the size alone
  have hdistance : candidateDistance q.onlyLive = candidateDistance q := rfl
  have hmiddle : middleIndex q.onlyLive = middleIndex q := rfl
  have hup : oneUp q.onlyLive = oneUp q := rfl
  have hdown : oneDown q.onlyLive = oneDown q := rfl
  induction fuel generalizing i j with
  | zero => cases h
  | succ fuel ih =>
    rw [searchLoop] at h ⊢
    simp only [hdistance, hmiddle, hup, hdown] at h
    obtain ⟨between, hbetween, h⟩ := Option.bind_eq_some_iff.mp h
    refine Option.bind_eq_some_iff.mpr ⟨between, records_onlyLive hbetween, ?_⟩
    split_ifs at h ⊢
    · exact h
    · exact h
    · exact h
    · exact ih h
    · exact ih h

theorem search_of_onlyLive {q : IterableQueueModel T} {element : T} {it : ℕ}
    (h : search q.onlyLive element = some it) : search q element = some it := by
  have hstart : search q.onlyLive element =
      if q.readIndex = q.writeIndex then some endIndex
      else (q.onlyLive.records q.readIndex).bind fun left =>
        if lt element left then some endIndex
        else searchLoop q.onlyLive element q.size q.readIndex
          (if q.writeIndex = 0 then q.size - 1 else q.writeIndex - 1) := rfl
  rw [hstart] at h
  rw [search]
  by_cases hempty : q.readIndex = q.writeIndex
  · rwa [if_pos hempty] at h ⊢
  · rw [if_neg hempty] at h ⊢
    obtain ⟨left, hleft, h⟩ := Option.bind_eq_some_iff.mp h
    refine Option.bind_eq_some_iff.mpr ⟨left, records_onlyLive hleft, ?_⟩
    by_cases hless : lt element left = true
    · rwa [if_pos hless] at h ⊢
    · rw [if_neg hless] at h ⊢
      exact searchLoop_of_onlyLive h

/-- What `lower_bound` has to return on a ring whose live slots hold `xs`: `end()` for an empty
ring and for an element below the front, else the first slot whose timestamp is not below that
of the element, or an iterator that is not good. -/
structure IsLowerBound (q : IterableQueueModel T) (xs : List T) (element : T) (it : ℕ) : Prop where
  end_of_empty : xs = [] → it = endIndex
  end_of_below : ∀ front ∈ xs.head?, lt element front = true → it = endIndex
  first : ∀ front ∈ xs.head?, lt element front = false → ∀ k (hk : k < xs.length),
    (∀ i (hi : i < k), tsNat xs[i] < tsNat element) → tsNat element ≤ tsNat xs[k] →
      q.liveSlots[k]? = some it
  none_left : ∀ front ∈ xs.head?, lt element front = false →
    (∀ x ∈ xs, tsNat x < tsNat element) → q.good it = false

theorem isLowerBound_of_represents (horder : TimestampConsistent T) {q : IterableQueueModel T}
    {xs : List T} (h : Represents q xs) (hsorted : StrictlyIncreasing tsNat xs) (element : T) :
    ∃ it, search q element = some it ∧ IsLowerBound q xs element it := by
  by_cases hne : xs = []
  · subst hne
    refine ⟨endIndex, by rw [search, if_pos (h.readIndex_eq_writeIndex_iff.mpr rfl)], ?_⟩
    exact ⟨fun _ => rfl, by simp, by simp, by simp⟩
  · rw [search_eq h horder hsorted hne]
    have hhead : ∀ front ∈ xs.head?, front = xs.head hne := by
      intro front hfront
      rw [List.head?_eq_some_head hne, Option.mem_some_iff] at hfront
      exact hfront.symm
    by_cases hless : lt element (xs.head hne) = true
    · rw [if_pos hless]
      refine ⟨endIndex, rfl, fun hnil => absurd hnil hne, fun _ _ _ => rfl, ?_, ?_⟩
      · intro front hfront hnot
        rw [hhead front hfront, hless] at hnot
        cases hnot
      · intro front hfront hnot
        rw [hhead front hfront, hless] at hnot
        cases hnot
    · rw [if_neg hless]
      refine ⟨_, rfl, fun hnil => absurd hnil hne, ?_, ?_, ?_⟩
      · intro front hfront hbelow
        rw [hhead front hfront] at hbelow
        exact absurd hbelow hless
      · intro _ _ _ k hk hbefore hat
        rw [Ordered.lowerBound_eq hk.le (fun i hi _ => hbefore i hi) fun _ => hat, liveSlots,
          h.distance_eq, List.getElem?_map, List.getElem?_range hk, Option.map_some]
      · intro _ _ _ hbelow
        have hlength : Ordered.lowerBound tsNat xs (tsNat element) = xs.length :=
          Ordered.lowerBound_eq le_rfl (fun i _ hi => hbelow _ (List.getElem_mem hi)) fun hlt =>
            absurd hlt (Nat.lt_irrefl _)
        rw [hlength, ← h.write_eq]
        exact h.good_writeIndex

/-- At every pair of indices the search ends, and it ends at the lower bound. -/
theorem lowerBound_isLowerBound (horder : TimestampConsistent T) (q : BinarySearchQueueModel T)
    (h2 : 2 ≤ q.size) (hsize : q.size ≤ 2147483648) (hread : q.readIndex < q.size)
    (hwrite : q.writeIndex < q.size) (xs : List T) (hxs : q.liveSlots.map q.records = xs.map some)
    (hsorted : StrictlyIncreasing tsNat xs) (element : T) (withErrors : Bool) :
    ∃ it, q.lowerBound element withErrors = some it ∧
      IsLowerBound q.toIterableQueueModel xs element it := by
  have hlive : LiveContent q.toIterableQueueModel xs := ⟨h2, by omega, hread, hwrite, hxs⟩
  obtain ⟨it, hsearch, hbound⟩ := isLowerBound_of_represents horder hlive.onlyLive hsorted element
  exact ⟨it, search_of_onlyLive hsearch, hbound.end_of_empty, hbound.end_of_below, hbound.first,
    hbound.none_left⟩

theorem lowerBound_isLowerBound_wrapped :
    ∃ it, (BinarySearchQueueModel.mk
        (positioned 4 3 3 fun i => (⟨10 * UInt64.ofNat i⟩ : Chunk 1 10))).lowerBound ⟨15⟩ true =
          some it ∧
      IsLowerBound (positioned 4 3 3 fun i => (⟨10 * UInt64.ofNat i⟩ : Chunk 1 10))
        [⟨0⟩, ⟨10⟩, ⟨20⟩] ⟨15⟩ it :=
  lowerBound_isLowerBound (Chunk.timestampOrder 1 10).consistent
    ⟨positioned 4 3 3 fun i => (⟨10 * UInt64.ofNat i⟩ : Chunk 1 10)⟩ (by decide) (by decide)
    (by decide) (by decide) [⟨0⟩, ⟨10⟩, ⟨20⟩] (by decide +kernel)
    (by unfold StrictlyIncreasing; decide +kernel) ⟨15⟩ true

end BinarySearchQueueModel

namespace FixedRateQueueModel
open BinarySearchQueueModel

theorem computedSearch_of_onlyLive {q : IterableQueueModel T} {element : T} {it : ℕ}
    (h : computedSearch q.onlyLive element = some it) : computedSearch q element = some it := by
  rw [computedSearch] at h ⊢
  obtain ⟨front, hfront, h⟩ := Option.bind_eq_some_iff.mp h
  exact Option.bind_eq_some_iff.mpr ⟨front, records_onlyLive hfront, h⟩

/-- Two iterators of a ring that stand at the same live slot, or at none. -/
def SameIterator (q : IterableQueueModel T) (it it' : ℕ) : Prop :=
  (q.good it = false ∧ q.good it' = false) ∨ (q.good it = true ∧ q.good it' = true ∧ it = it')

section Ring
variable (horder : TimestampOrder T) {q : IterableQueueModel T} {xs : List T} {n tick : ℕ}
  (h : Represents q xs) (hgap : GapFree (n * tick) xs) (hne : xs ≠ [])
  (hextent : HasExtent (xs.head hne) n tick)
include horder h hgap hextent

theorem computedSearch_agrees (hsize : q.size < 2147483648)
    (hnewest : tsNat (xs.getLast hne) + n * tick < 2 ^ 63) (element : T) :
    ∃ fast slow, computedSearch q element = some fast ∧ search q element = some slow ∧
      SameIterator q fast slow ∧ (fast = endIndex ∨ fast < q.size) := by
  have hpos := List.length_pos_iff.mpr hne
  have hlb : Ordered.lowerBound tsNat xs (tsNat element) ≤ xs.length := lowerBound_le_length
  have hsorted := hgap.strictlyIncreasing hextent.span_pos
  rw [computedSearch_eq h hgap hne hextent hsize, search_eq h horder.consistent hsorted hne]
  simp only [horder.lt_eq_true_iff]
  by_cases hbelow : tsNat element < tsNat (xs.head hne)
  · rw [if_pos (.inl hbelow), if_pos hbelow]
    exact ⟨_, _, rfl, rfl, .inl ⟨good_endIndex q, good_endIndex q⟩, .inl rfl⟩
  rw [if_neg hbelow]
  by_cases habove : (tsNat (xs.head hne) + xs.length * (n * tick)) % 2 ^ 64 < tsNat element
  · -- past the extrapolated newest timestamp the binary search ends after the last element
    have hlast : tsNat (xs.getLast hne) < tsNat element := by
      rw [List.getLast_eq_getElem, hgap.tsNat_getElem (by omega)] at hnewest ⊢
      have hmul : xs.length * (n * tick) = (xs.length - 1) * (n * tick) + n * tick := by
        rw [← Nat.succ_mul, Nat.succ_eq_add_one, Nat.sub_add_cancel hpos]
      rw [List.head_eq_getElem, hmul] at habove
      omega
    have hlength : Ordered.lowerBound tsNat xs (tsNat element) = xs.length := by
      refine Ordered.lowerBound_eq le_rfl (fun i _ hi => ?_) fun hlt => absurd hlt (Nat.lt_irrefl _)
      exact
        (hsorted.le_getLast (List.getLast?_eq_some_getLast hne) _ (List.getElem_mem hi)).trans_lt
        hlast
    rw [if_pos (.inr habove), hlength, ← h.write_eq]
    exact ⟨_, _, rfl, rfl, .inl ⟨good_endIndex q, h.good_writeIndex⟩, .inl rfl⟩
  · rw [if_neg (not_or_intro hbelow habove)]
    refine ⟨_, _, rfl, rfl, ?_, .inr (slot_lt h.read_lt (hlb.trans_lt h.length_lt))⟩
    cases hgood :
      q.good (slot q.size q.readIndex (Ordered.lowerBound tsNat xs (tsNat element))) with
    | false => exact .inl ⟨hgood, hgood⟩
    | true => exact .inr ⟨hgood, hgood, rfl⟩

end Ring

/-- On a gap-free ring in the signed 32-bit range the computed index agrees with the binary
search at every timestamp, and it lies in the ring. -/
theorem lowerBound_agrees (horder : TimestampOrder T) (q : FixedRateQueueModel T) (h2 : 2 ≤ q.size)
    (hsize : q.size ≤ 2147483647) (hread : q.readIndex < q.size) (hwrite : q.writeIndex < q.size)
    (xs : List T) (hne : xs ≠ []) (hxs : q.liveSlots.map q.records = xs.map some) (n tick : ℕ)
    (hn : 1 ≤ n) (htick : 1 ≤ tick) (hframes : ∀ x ∈ xs, (getNumFrames x).toNat = n)
    (hdifference : (expectedTickDifference T).toNat = tick) (hgap : GapFree (n * tick) xs)
    (hnewest : tsNat (xs.getLast hne) + n * tick < 2 ^ 63) (element : T) :
    ∃ fast slow, q.lowerBound element false = some fast ∧ q.lowerBound element true = some slow ∧
      SameIterator q.toIterableQueueModel fast slow ∧ (fast = endIndex ∨ fast < q.size) := by
  have hlive : LiveContent q.toIterableQueueModel xs := ⟨h2, by omega, hread, hwrite, hxs⟩
  have hextent : HasExtent (xs.head hne) n tick :=
    ⟨hn, htick, by omega, hframes _ (List.head_mem hne), hdifference⟩
  obtain ⟨fast, slow, hfast, hslow, hsame⟩ :=
    computedSearch_agrees horder hlive.onlyLive hgap hne hextent (Nat.lt_succ_of_le hsize) hnewest
      element
  exact ⟨fast, slow, computedSearch_of_onlyLive hfast, search_of_onlyLive hslow, hsame⟩

theorem lowerBound_agrees_wrapped :
    ∃ fast slow,
      (FixedRateQueueModel.mk (.mk (positioned 4 3 3 fun i =>
        (⟨10 * UInt64.ofNat i⟩ : Chunk 1 10)))).lowerBound ⟨15⟩ false = some fast ∧
      (FixedRateQueueModel.mk (.mk (positioned 4 3 3 fun i =>
        (⟨10 * UInt64.ofNat i⟩ : Chunk 1 10)))).lowerBound ⟨15⟩ true = some slow ∧
      SameIterator (positioned 4 3 3 fun i => (⟨10 * UInt64.ofNat i⟩ : Chunk 1 10)) fast slow ∧
      (fast = endIndex ∨ fast < 4) :=
  lowerBound_agrees (Chunk.timestampOrder 1 10)
    ⟨⟨positioned 4 3 3 fun i => (⟨10 * UInt64.ofNat i⟩ : Chunk 1 10)⟩⟩ (by decide) (by decide)
    (by decide) (by decide) [⟨0⟩, ⟨10⟩, ⟨20⟩] (by decide) (by decide +kernel) 1 10 (by decide)
    (by decide) (fun _ _ => rfl) rfl (by unfold GapFree; decide +kernel) (by decide +kernel) ⟨15⟩

end FixedRateQueueModel
end DataHandling

import DataHandling.Buffer.Enumeration
import DataHandling.Chunk

/-! The search of an aligned element with which a zero-copy recording starts, on a ring that nobody
else changes. -/

namespace DataHandling
open ReadoutType IterableQueueModel

/-- `start_of_buffer()`, the alignment of the ring and `sizeof` its elements. -/
structure AlignmentConf where
  startOfBuffer : ℕ
  alignmentSize : ℕ
  elementSize : ℕ

/-- Where the search leads: to a remainder by zero, back to the outer loop, or to a start. The last
two come with `m_next_timestamp_to_record`. -/
inductive SearchOutcome where
  | remainderByZero
  | outerLoop (nextTimestampToRecord : UInt64)
  | found (begin : ℕ) (nextTimestampToRecord skippedFrames : UInt64)
  deriving DecidableEq

namespace AlignmentConf
variable {T : Type} (conf : AlignmentConf)

def addressOf (index : ℕ) : ℕ :=
  (conf.startOfBuffer + index * conf.elementSize) % 18446744073709551616

def skipUnaligned (q : IterableQueueModel T) : ℕ → ℕ → UInt64 → UInt64 → Option SearchOutcome
  | 0, _, _, _ => none
  | fuel + 1, begin, next, skippedFrames =>
    if conf.alignmentSize = 0 then some .remainderByZero
    else if conf.addressOf begin % conf.alignmentSize ≠ 0 then
      let begin := q.next begin
      if q.good begin then skipUnaligned q fuel begin next (skippedFrames + 1)
      -- this `continue` belongs to the same loop
      else skipUnaligned q fuel begin 0 (skippedFrames + 1)
    else some (.found begin next skippedFrames)

/-- The pass of the outer loop with `m_next_timestamp_to_record` at zero, up to the start. -/
def searchStart [ReadoutType T] (fuel : ℕ) (q : IterableQueueModel T) : Option SearchOutcome :=
  if q.begin = endIndex then some (.outerLoop 0)
  else (q.records q.begin).bind fun x =>
    conf.skipUnaligned q fuel q.begin (getTimestamp x) 0

/-- An outcome is sound if it is an aligned stored element, or the outer loop and there is none. -/
def Sound (q : IterableQueueModel T) : SearchOutcome → Prop
  | .remainderByZero => False
  | .outerLoop next =>
    next = 0 ∧ ∀ index ∈ q.liveSlots, conf.addressOf index % conf.alignmentSize ≠ 0
  | .found begin _ _ => begin ∈ q.liveSlots ∧ conf.addressOf begin % conf.alignmentSize = 0

def SearchesSoundly [ReadoutType T] (q : IterableQueueModel T) : Prop :=
  ∃ fuel outcome, conf.searchStart fuel q = some outcome ∧ conf.Sound q outcome

/-- Some element stored is aligned, by an alignment that is not zero. -/
def HasAligned (q : IterableQueueModel T) : Prop :=
  conf.alignmentSize ≠ 0 ∧ ∃ index ∈ q.liveSlots, conf.addressOf index % conf.alignmentSize = 0

section Search
variable {q : IterableQueueModel T} {xs : List T}

/-- With no aligned element the loop does not come to a sound end, however long it runs. -/
theorem not_sound_of_skipUnaligned (h : Represents q xs) (hnone : ¬ conf.HasAligned q) {fuel k : ℕ}
    {next skippedFrames : UInt64} {outcome : SearchOutcome}
    (hskip : conf.skipUnaligned q fuel (iteratorAt q k) next skippedFrames = some outcome) :
    ¬ conf.Sound q outcome := by
  induction fuel generalizing k next skippedFrames with
  | zero => cases hskip
  | succ fuel ih =>
    simp only [skipUnaligned, next_iteratorAt h] at hskip
    split_ifs at hskip with hzero
    · cases hskip
      exact id
    · exact ih hskip
    · exact ih hskip
    · cases hskip
      rintro ⟨hmem, haligned⟩
      exact hnone ⟨hzero, _, hmem, haligned⟩

theorem skipUnaligned_found (h : Represents q xs) (hzero : conf.alignmentSize ≠ 0) {k m : ℕ}
    (hkm : k ≤ m) (hm : m < xs.length)
    (haligned : conf.addressOf (iteratorAt q m) % conf.alignmentSize = 0)
    (next skippedFrames : UInt64) :
    ∃ fuel outcome, conf.skipUnaligned q fuel (iteratorAt q k) next skippedFrames = some outcome ∧
      conf.Sound q outcome := by
  have hlive : ∀ j ≤ m, iteratorAt q j ∈ q.liveSlots := by
    intro j hj
    rw [iteratorAt, getElem?_liveSlots h, if_pos (by omega)]
    refine List.mem_of_getElem? (i := j) ?_
    rw [getElem?_liveSlots h, if_pos (by omega)]
    rfl
  have hsize : ∀ j ≤ m, iteratorAt q j < q.size := by
    intro j hj
    rw [iteratorAt, getElem?_liveSlots h, if_pos (by omega)]
    exact Cyclic.slot_lt h.read_lt (Nat.lt_trans (by omega) h.length_lt)
  induction hd : m - k generalizing k next skippedFrames with
  | zero =>
    obtain rfl : k = m := by omega
    refine ⟨1, .found (iteratorAt q k) next skippedFrames, ?_, hlive k hkm, haligned⟩
    rw [skipUnaligned, if_neg hzero, if_neg (not_not.mpr haligned)]
  | succ d ih =>
    by_cases haddress : conf.addressOf (iteratorAt q k) % conf.alignmentSize = 0
    · refine ⟨1, .found (iteratorAt q k) next skippedFrames, ?_, hlive k hkm, haddress⟩
      rw [skipUnaligned, if_neg hzero, if_neg (not_not.mpr haddress)]
    · obtain ⟨fuel, outcome, hskip, hsound⟩ :=
        ih (k := k + 1) (by omega) next (skippedFrames + 1) (by omega)
      refine ⟨fuel + 1, outcome, ?_, hsound⟩
      have hgood : q.good (iteratorAt q (k + 1)) = true :=
        (good_iff_mem_liveSlots h (hsize _ (by omega))).mpr (hlive _ (by omega))
      rw [skipUnaligned, if_neg hzero, if_pos haddress]
      simp only [next_iteratorAt h, hgood, if_true]
      exact hskip

theorem searchStart_eq [ReadoutType T] (h : Represents q xs) (hne : xs ≠ []) :
    ∃ x ∈ xs, ∀ fuel, conf.searchStart fuel q =
      conf.skipUnaligned q fuel (iteratorAt q 0) (getTimestamp x) 0 := by
  obtain ⟨x, ys, rfl⟩ := List.exists_cons_of_ne_nil hne
  have hbegin := begin_eq_iteratorAt h
  have hstart : iteratorAt q 0 = q.readIndex := by
    rw [iteratorAt, getElem?_liveSlots h, if_pos (List.length_pos_iff.mpr hne),
      Option.getD_some, Cyclic.slot_zero h.read_lt]
  have hx : q.records q.begin = some x := by
    have hstored := h.stored 0 (Nat.succ_pos _)
    rwa [Cyclic.slot_zero h.read_lt, ← hstart, ← hbegin] at hstored
  have hread := h.read_lt
  have hsize := h.size_lt
  refine ⟨x, List.mem_cons_self, fun fuel => ?_⟩
  rw [searchStart, hx, if_neg, hbegin]
  · rfl
  · rw [hbegin, hstart, endIndex, MachineInt.u32Max]
    omega

theorem not_searchesSoundly [ReadoutType T] (h : Represents q xs) (hne : xs ≠ [])
    (hnone : ¬ conf.HasAligned q) : ¬ conf.SearchesSoundly q := by
  rintro ⟨fuel, outcome, hsearch, hsound⟩
  obtain ⟨x, -, heq⟩ := conf.searchStart_eq h hne
  rw [heq] at hsearch
  exact conf.not_sound_of_skipUnaligned h hnone hsearch hsound

/-- The search is sound just on an empty ring and on one with an aligned element. -/
theorem searchesSoundly_iff [ReadoutType T] (h : Represents q xs) :
    conf.SearchesSoundly q ↔ xs = [] ∨ conf.HasAligned q := by
  constructor
  · intro hsound
    by_contra hcontra
    rw [not_or] at hcontra
    exact conf.not_searchesSoundly h hcontra.1 hcontra.2 hsound
  · by_cases hne : xs = []
    · intro _
      have hbegin : q.begin = endIndex := if_pos (h.readIndex_eq_writeIndex_iff.mpr hne)
      refine ⟨0, .outerLoop 0, if_pos hbegin, rfl, fun index hindex => ?_⟩
      rw [List.eq_nil_of_length_eq_zero (h.liveSlots_length.trans (by rw [hne]; rfl))] at hindex
      cases hindex
    · intro hcase
      obtain ⟨hzero, index, hindex, haligned⟩ := hcase.resolve_left hne
      obtain ⟨m, hm⟩ := List.mem_iff_getElem?.mp hindex
      have hiterator : iteratorAt q m = index := by rw [iteratorAt, hm, Option.getD_some]
      have hlt : m < xs.length := by
        rw [getElem?_liveSlots h] at hm
        split_ifs at hm with hlt
        exact hlt
      rw [← hiterator] at haligned
      obtain ⟨x, -, heq⟩ := conf.searchStart_eq h hne
      obtain ⟨fuel, outcome, hskip, hsound⟩ :=
        conf.skipUnaligned_found h hzero (Nat.zero_le m) hlt haligned (getTimestamp x) 0
      exact ⟨fuel, outcome, (heq fuel).trans hskip, hsound⟩

end Search

/-- Pages of 4096 bytes, from a page on: of the 256 elements of 464 bytes only the first is
aligned. -/
def pages : AlignmentConf := ⟨65536, 4096, 464⟩

/-- The newest of three elements has gone over the end of the ring, to its aligned slot. -/
theorem searchesSoundly_iff_wrapped :
    pages.SearchesSoundly (positioned 256 254 3 fun i => (⟨i.toUInt64⟩ : Chunk 1 10)) :=
  (pages.searchesSoundly_iff
    (represents_positioned _ (by decide) (by decide) (by decide) (by decide))).mpr
      (.inr ⟨by decide, 0, by decide, by decide⟩)

/-- Two elements in the middle of the ring: the search goes on at `end()` for ever. -/
theorem not_searchesSoundly_of_middle :
    ¬ pages.SearchesSoundly (positioned 256 1 2 fun i => (⟨i.toUInt64⟩ : Chunk 1 10)) := by
  apply pages.not_searchesSoundly
    (represents_positioned _ (by decide) (by decide) (by decide) (by decide)) (by decide)
  rintro ⟨-, hmem⟩
  revert hmem
  decide

theorem searchStart_remainderByZero [ReadoutType T] {q : IterableQueueModel T} {xs : List T}
    (h : Represents q xs) (hne : xs ≠ []) (hzero : conf.alignmentSize = 0) (fuel : ℕ) :
    conf.searchStart (fuel + 1) q = some .remainderByZero := by
  obtain ⟨x, -, heq⟩ := conf.searchStart_eq h hne
  rw [heq, skipUnaligned, if_pos hzero]

end AlignmentConf
end DataHandling

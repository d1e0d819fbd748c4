import DataHandling.Buffer.BinarySearch
import DataHandling.Buffer.InterfaceAgreement

/-! The 32-bit index arithmetic of `occupancy` and of the search, at every ring size: where it is
exact. The search can only overflow on its way up, where its candidates lie before the end of the
records and its middle behind the largest index. -/

namespace DataHandling.BinarySearchQueueModel
open MachineInt Cyclic ReadoutType IterableQueueModel

variable {T : Type} [ReadoutType T]

section Defs
variable (q : IterableQueueModel T) (element : T)

def middleOf (startIndex endIndex : ℕ) : ℕ :=
  middleIndex q startIndex (candidateDistance q startIndex endIndex)

def HasCandidates : Prop :=
  q.readIndex ≠ q.writeIndex ∧ ∃ left, q.records q.readIndex = some left ∧ lt element left = false

/-- `start_index` and `end_index` at the head of the loop, in the iterations of a search. -/
inductive Iteration : ℕ → ℕ → Prop
  | first (hstart : HasCandidates q element) :
      Iteration q.readIndex (if q.writeIndex = 0 then q.size - 1 else q.writeIndex - 1)
  | lower {startIndex endIndex : ℕ} {between : T} (h : Iteration startIndex endIndex)
      (hrecord : q.records (middleOf q startIndex endIndex) = some between)
      (hts : getTimestamp element ≠ getTimestamp between)
      (hdiff : candidateDistance q startIndex endIndex ≠ 0) (hless : lt element between = true) :
      Iteration startIndex (oneDown q (middleOf q startIndex endIndex))
  | upper {startIndex endIndex : ℕ} {between : T} (h : Iteration startIndex endIndex)
      (hrecord : q.records (middleOf q startIndex endIndex) = some between)
      (hts : getTimestamp element ≠ getTimestamp between)
      (hdiff : candidateDistance q startIndex endIndex ≠ 0) (hless : lt element between = false) :
      Iteration (middleOf q startIndex endIndex) endIndex

/-- The occupancy, and in every iteration of a search the cyclic distance and the middle index,
are what they stand for, and indices of the ring. -/
structure ExactIndices : Prop where
  occupancy : (q.occupancy : ℤ) = ((q.writeIndex : ℤ) - q.readIndex) % q.size
  diff : ∀ startIndex endIndex, Iteration q element startIndex endIndex →
    (candidateDistance q startIndex endIndex : ℤ) = ((endIndex : ℤ) - startIndex) % q.size ∧
      candidateDistance q startIndex endIndex < q.size
  middle : ∀ startIndex endIndex, Iteration q element startIndex endIndex →
    middleOf q startIndex endIndex =
        (startIndex + (candidateDistance q startIndex endIndex + 1) / 2) % q.size ∧
      middleOf q startIndex endIndex < q.size

def lastPosition : ℕ := distance q.size q.readIndex q.writeIndex - 1

def climbPosition (last k : ℕ) : ℕ := last - last / 2 ^ k

/-- The element is above the records that the search compares it with in its first `k` steps,
when it only goes up. -/
def Climbs (k : ℕ) : Prop :=
  ∀ l < k, lastPosition q / 2 ^ l ≠ 0 ∧
    ∃ between,
      q.records (slot q.size q.readIndex (climbPosition (lastPosition q) (l + 1))) = some between ∧
        getTimestamp element ≠ getTimestamp between ∧ lt element between = false

/-- On the way up no index sum reaches `2^32` before the end of the records is passed. -/
def ClimbFits : Prop :=
  HasCandidates q element → ∀ k, Climbs q element k →
    q.readIndex + climbPosition (lastPosition q) k < q.size →
      q.readIndex + climbPosition (lastPosition q) (k + 1) < 2 ^ 32

end Defs

section Arithmetic
omit [ReadoutType T]
variable {q : IterableQueueModel T} {s d i j k last : ℕ}

theorem lastIndex_slot (hread : q.readIndex < q.size) (hwrite : q.writeIndex < q.size)
    (hne : q.readIndex ≠ q.writeIndex) :
    (if q.writeIndex = 0 then q.size - 1 else q.writeIndex - 1) =
      slot q.size q.readIndex (lastPosition q) := by
  unfold lastPosition slot distance
  split_ifs <;> omega

theorem lastPosition_lt (hread : q.readIndex < q.size) (hwrite : q.writeIndex < q.size) :
    lastPosition q < q.size := Nat.lt_of_le_of_lt (Nat.sub_le _ _) (distance_lt hread hwrite)

theorem middleIndex_exact_iff (hs : s < q.size) (hd : d < q.size) (hsize : q.size < 4294967296) :
    middleIndex q s d < q.size ∧
      (middleIndex q s d = (s + (d + 1) / 2) % q.size ↔ s + (d + 1) / 2 < 2 ^ 32) := by
  have hhalf : (d + 1) / 2 < q.size := by omega
  rw [middleIndex, u32_of_lt (n := d + 1) (by omega)]
  generalize (d + 1) / 2 = half at hhalf
  have hcases := add_mod_cases hs hhalf
  generalize (s + half) % q.size = exact at hcases
  unfold wrapIndex u32
  split_ifs <;> omega

theorem middleIndex_slot_of_lt (hread : q.readIndex < q.size) (hsize : q.size < 4294967296)
    (hi : i + (d + 1) / 2 < q.size) (hd : d < q.size)
    (hsum : slot q.size q.readIndex i + (d + 1) / 2 < 2 ^ 32) :
    middleIndex q (slot q.size q.readIndex i) d = slot q.size q.readIndex (i + (d + 1) / 2) := by
  rw [middleIndex, u32_of_lt (n := d + 1) (by omega), u32_of_lt hsum]
  unfold wrapIndex slot
  split_ifs <;> omega

theorem climbPosition_zero : climbPosition last 0 = 0 := by
  rw [climbPosition, Nat.pow_zero, Nat.div_one, Nat.sub_self]

theorem climbPosition_le : climbPosition last k ≤ last := Nat.sub_le _ _

theorem last_sub_climbPosition : last - climbPosition last k = last / 2 ^ k :=
  Nat.sub_sub_self (Nat.div_le_self _ _)

theorem climbPosition_succ :
    climbPosition last (k + 1) = climbPosition last k + (last / 2 ^ k + 1) / 2 := by
  have hle : last / 2 ^ k ≤ last := Nat.div_le_self _ _
  have hhalf : last / 2 ^ (k + 1) = last / 2 ^ k / 2 := by
    rw [Nat.pow_succ, Nat.div_div_eq_div_mul]
  unfold climbPosition
  omega

end Arithmetic

theorem Iteration.hasCandidates {q : IterableQueueModel T} {element : T} {s e : ℕ}
    (h : Iteration q element s e) : HasCandidates q element := by
  induction h with
  | first hstart => exact hstart
  | lower _ _ _ _ _ ih => exact ih
  | upper _ _ _ _ _ ih => exact ih

theorem searchLoop_succ (q : IterableQueueModel T) (element : T) (fuel startIndex endIndex : ℕ) :
    searchLoop q element (fuel + 1) startIndex endIndex =
      (q.records (middleOf q startIndex endIndex)).bind fun between =>
        if getTimestamp element = getTimestamp between then some (middleOf q startIndex endIndex)
        else if candidateDistance q startIndex endIndex = 0 then
          if lt element between then some (middleOf q startIndex endIndex)
          else some (oneUp q (middleOf q startIndex endIndex))
        else if lt element between then
          searchLoop q element fuel startIndex (oneDown q (middleOf q startIndex endIndex))
        else searchLoop q element fuel (middleOf q startIndex endIndex) endIndex := rfl

section Search
variable {q : IterableQueueModel T} {element : T} {startIndex endIndex : ℕ}
  (hread : q.readIndex < q.size) (hwrite : q.writeIndex < q.size) (hsize : q.size < 4294967296)
include hread hwrite hsize

/-- The candidates of an iteration lie in order in the ring, and from there the loop goes on to
the result of the search. -/
theorem Iteration.candidates (h : Iteration q element startIndex endIndex) :
    ∃ i j fuel, i ≤ j ∧ j ≤ lastPosition q ∧ startIndex = slot q.size q.readIndex i ∧
      endIndex = slot q.size q.readIndex j ∧ j - i < fuel ∧
        search q element = searchLoop q element fuel startIndex endIndex := by
  have hlast := lastPosition_lt hread hwrite
  induction h with
  | first hstart =>
    obtain ⟨hne, left, hleft, hless⟩ := hstart
    refine ⟨0, lastPosition q, q.size, Nat.zero_le _, Nat.le_refl _, (slot_zero hread).symm,
      lastIndex_slot hread hwrite hne, by omega, ?_⟩
    rw [search, if_neg hne]
    dsimp only
    rw [hleft, Option.bind_some, if_neg (Bool.eq_false_iff.mp hless)]
  | @lower startIndex endIndex between h hrecord hts hdiff hless ih =>
    obtain ⟨i, j, fuel, hij, hj, rfl, rfl, hfuel, hsearch⟩ := ih
    have hd := candidateDistance_slot hread hsize hij (Nat.lt_of_le_of_lt hj hlast)
    obtain ⟨m, him, hmj, hm⟩ := middleIndex_slot hread hsize (show i < j by omega)
      (Nat.lt_of_le_of_lt hj hlast)
    obtain ⟨fuel, rfl⟩ : ∃ n, fuel = n + 1 := ⟨fuel - 1, by omega⟩
    obtain ⟨m, rfl⟩ : ∃ n, m = n + 1 := ⟨m - 1, by omega⟩
    have hdown : oneDown q (middleOf q (slot q.size q.readIndex i) (slot q.size q.readIndex j)) =
        slot q.size q.readIndex m := by
      rw [middleOf, hd, hm]
      exact oneDown_slot hread (by omega)
    refine ⟨i, m, fuel, by omega, by omega, rfl, hdown, by omega, ?_⟩
    rw [hsearch, searchLoop_succ, hrecord, Option.bind_some, if_neg hts, if_neg hdiff, if_pos hless]
  | @upper startIndex endIndex between h hrecord hts hdiff hless ih =>
    obtain ⟨i, j, fuel, hij, hj, rfl, rfl, hfuel, hsearch⟩ := ih
    have hd := candidateDistance_slot hread hsize hij (Nat.lt_of_le_of_lt hj hlast)
    obtain ⟨m, him, hmj, hm⟩ := middleIndex_slot hread hsize (show i < j by omega)
      (Nat.lt_of_le_of_lt hj hlast)
    obtain ⟨fuel, rfl⟩ : ∃ n, fuel = n + 1 := ⟨fuel - 1, by omega⟩
    refine ⟨m, j, fuel, hmj, hj, by rw [middleOf, hd, hm], rfl, by omega, ?_⟩
    rw [hsearch, searchLoop_succ, hrecord, Option.bind_some, if_neg hts, if_neg hdiff,
      if_neg (Bool.eq_false_iff.mp hless)]

theorem Iteration.diff_exact (h : Iteration q element startIndex endIndex) :
    (candidateDistance q startIndex endIndex : ℤ) = ((endIndex : ℤ) - startIndex) % q.size ∧
      candidateDistance q startIndex endIndex < q.size ∧ startIndex < q.size := by
  have hlast := lastPosition_lt hread hwrite
  obtain ⟨i, j, _, hij, hj, rfl, rfl, _, _⟩ := h.candidates hread hwrite hsize
  have hi := slot_lt hread (show i < q.size by omega)
  have hd := candidateDistance_slot hread hsize hij (Nat.lt_of_le_of_lt hj hlast)
  rw [← distance_eq_emod hi (slot_lt hread (by omega)), hd]
  refine ⟨?_, by omega, hi⟩
  unfold distance slot
  split_ifs <;> omega

theorem Iteration.middle_exact_iff (h : Iteration q element startIndex endIndex) :
    (middleOf q startIndex endIndex =
        (startIndex + (candidateDistance q startIndex endIndex + 1) / 2) % q.size ∧
      middleOf q startIndex endIndex < q.size) ↔
        startIndex + (candidateDistance q startIndex endIndex + 1) / 2 < 2 ^ 32 := by
  obtain ⟨_, hd, hs⟩ := h.diff_exact hread hwrite hsize
  obtain ⟨hlt, hiff⟩ := middleIndex_exact_iff hs hd hsize
  exact (and_iff_left hlt).trans hiff

omit [ReadoutType T] in
theorem middleOf_slot {i j : ℕ} (hij : i ≤ j) (hj : j ≤ lastPosition q)
    (hsum : slot q.size q.readIndex i + (j - i + 1) / 2 < 2 ^ 32) :
    middleOf q (slot q.size q.readIndex i) (slot q.size q.readIndex j) =
      slot q.size q.readIndex (i + (j - i + 1) / 2) := by
  have hlast := lastPosition_lt hread hwrite
  rw [middleOf, candidateDistance_slot hread hsize hij (Nat.lt_of_le_of_lt hj hlast)]
  exact middleIndex_slot_of_lt hread hsize (by omega) (by omega) hsum

omit [ReadoutType T] in
theorem middleOf_climb {k : ℕ}
    (hsum : slot q.size q.readIndex (climbPosition (lastPosition q) k) +
      (lastPosition q / 2 ^ k + 1) / 2 < 2 ^ 32) :
    middleOf q (slot q.size q.readIndex (climbPosition (lastPosition q) k))
        (slot q.size q.readIndex (lastPosition q)) =
      slot q.size q.readIndex (climbPosition (lastPosition q) (k + 1)) := by
  rw [← last_sub_climbPosition] at hsum
  rw [middleOf_slot hread hwrite hsize climbPosition_le (Nat.le_refl _) hsum,
    last_sub_climbPosition, climbPosition_succ]

theorem climb_iteration {k : ℕ} (hstart : HasCandidates q element)
    (hfits : ∀ s e, Iteration q element s e → s + (candidateDistance q s e + 1) / 2 < 2 ^ 32)
    (hclimb : Climbs q element k) :
    Iteration q element (slot q.size q.readIndex (climbPosition (lastPosition q) k))
      (slot q.size q.readIndex (lastPosition q)) := by
  have hlast := lastPosition_lt hread hwrite
  induction k with
  | zero =>
    rw [climbPosition_zero, slot_zero hread, ← lastIndex_slot hread hwrite hstart.1]
    exact .first hstart
  | succ k ih =>
    have h := ih fun l hl => hclimb l (Nat.lt_succ_of_lt hl)
    have hsum := hfits _ _ h
    have hdiff := candidateDistance_slot hread hsize (climbPosition_le (k := k)) hlast
    rw [hdiff, last_sub_climbPosition] at hsum
    have hmiddle := middleOf_climb hread hwrite hsize hsum
    obtain ⟨hne, between, hrecord, hts, hless⟩ := hclimb k (Nat.lt_succ_self k)
    rw [← hmiddle] at hrecord ⊢
    refine .upper h hrecord hts ?_ hless
    rw [hdiff, last_sub_climbPosition]
    exact hne

/-- Where an iteration stands: it has only gone up, or its index sums can no longer overflow. -/
def OnCourse (q : IterableQueueModel T) (element : T) (startIndex endIndex : ℕ) : Prop :=
  ∃ i j, i ≤ j ∧ j ≤ lastPosition q ∧ startIndex = slot q.size q.readIndex i ∧
    endIndex = slot q.size q.readIndex j ∧
      ((∃ k, Climbs q element k ∧ i = climbPosition (lastPosition q) k ∧ j = lastPosition q) ∨
        q.size ≤ q.readIndex + i ∨ q.readIndex + j < 2 ^ 32)

theorem OnCourse.fits (h : OnCourse q element startIndex endIndex)
    (hstart : HasCandidates q element) (hfits : ClimbFits q element) :
    startIndex + (candidateDistance q startIndex endIndex + 1) / 2 < 2 ^ 32 := by
  have hlast := lastPosition_lt hread hwrite
  obtain ⟨i, j, hij, hj, rfl, rfl, hcourse⟩ := h
  rw [candidateDistance_slot hread hsize hij (Nat.lt_of_le_of_lt hj hlast)]
  rcases Nat.lt_or_ge (q.readIndex + i) q.size with hlt | hge
  · have hslot : slot q.size q.readIndex i = q.readIndex + i := if_pos hlt
    rw [hslot]
    rcases hcourse with ⟨k, hclimb, rfl, rfl⟩ | hwrapped | hbelow
    · have hsum := hfits hstart k hclimb hlt
      rw [climbPosition_succ] at hsum
      rw [last_sub_climbPosition]
      omega
    · omega
    · omega
  · have hslot : slot q.size q.readIndex i = q.readIndex + i - q.size := if_neg (Nat.not_lt.mpr hge)
    omega

theorem Iteration.onCourse (hfits : ClimbFits q element)
    (h : Iteration q element startIndex endIndex) : OnCourse q element startIndex endIndex := by
  have hlast := lastPosition_lt hread hwrite
  induction h with
  | first hstart =>
    refine ⟨0, lastPosition q, Nat.zero_le _, Nat.le_refl _, (slot_zero hread).symm,
      lastIndex_slot hread hwrite hstart.1, .inl ⟨0, nofun, climbPosition_zero.symm, rfl⟩⟩
  | @lower startIndex endIndex between h hrecord hts hdiff hless ih =>
    have hsum := ih.fits hread hwrite hsize h.hasCandidates hfits
    obtain ⟨i, j, hij, hj, rfl, rfl, hcourse⟩ := ih
    have hd := candidateDistance_slot hread hsize hij (Nat.lt_of_le_of_lt hj hlast)
    rw [hd] at hsum hdiff
    rw [middleOf_slot hread hwrite hsize hij hj hsum]
    obtain ⟨m, hm⟩ : ∃ m, i + (j - i + 1) / 2 = m + 1 := ⟨i + (j - i + 1) / 2 - 1, by omega⟩
    rw [hm, oneDown_slot hread (by omega)]
    refine ⟨i, m, by omega, by omega, rfl, rfl, .inr ?_⟩
    rcases hcourse with ⟨k, hclimb, rfl, rfl⟩ | hwrapped | hbelow
    · rcases Nat.lt_or_ge (q.readIndex + climbPosition (lastPosition q) k) q.size with hlt | hge
      · have hnext := hfits h.hasCandidates k hclimb hlt
        rw [climbPosition_succ, ← last_sub_climbPosition] at hnext
        exact .inr (by omega)
      · exact .inl hge
    · exact .inl hwrapped
    · exact .inr (by omega)
  | @upper startIndex endIndex between h hrecord hts hdiff hless ih =>
    have hsum := ih.fits hread hwrite hsize h.hasCandidates hfits
    obtain ⟨i, j, hij, hj, rfl, rfl, hcourse⟩ := ih
    have hd := candidateDistance_slot hread hsize hij (Nat.lt_of_le_of_lt hj hlast)
    rw [hd] at hsum hdiff
    rw [middleOf_slot hread hwrite hsize hij hj hsum] at hrecord ⊢
    refine ⟨i + (j - i + 1) / 2, j, by omega, hj, rfl, rfl, ?_⟩
    rcases hcourse with ⟨k, hclimb, rfl, rfl⟩ | hwrapped | hbelow
    · have hnext : climbPosition (lastPosition q) k +
          (lastPosition q - climbPosition (lastPosition q) k + 1) / 2 =
            climbPosition (lastPosition q) (k + 1) := by
        rw [last_sub_climbPosition, climbPosition_succ]
      rw [hnext] at hrecord ⊢
      rw [last_sub_climbPosition] at hdiff
      refine .inl ⟨k + 1, fun l hl => ?_, rfl, rfl⟩
      rcases Nat.lt_or_eq_of_le (Nat.le_of_lt_succ hl) with hlk | rfl
      · exact hclimb l hlk
      · exact ⟨hdiff, between, hrecord, hts, hless⟩
    · exact .inr (.inl (by omega))
    · exact .inr (.inr hbelow)

/-- Occupancy and search compute exactly, for a ring and an element, just where the difference of
the indices and the number of elements are signed 32-bit integers and the climb fits. -/
theorem exactIndices_iff : ExactIndices q element ↔
    BufferPair.IndicesComparable q ∧ distance q.size q.readIndex q.writeIndex < 2 ^ 31 ∧
      ClimbFits q element := by
  have hocc := BufferPair.occupancy_eq_toSize_iff hread hwrite hsize
  have hdist := distance_eq_emod hread hwrite
  have hlt := distance_lt hread hwrite
  have hsigned : distance q.size q.readIndex q.writeIndex < 2 ^ 31 →
      toSize (i32 (distance q.size q.readIndex q.writeIndex)) =
        distance q.size q.readIndex q.writeIndex := by
    intro h31
    rw [i32_of_lt h31]
    exact toSize_natCast (by omega)
  constructor
  · intro h
    have hexact : q.occupancy = distance q.size q.readIndex q.writeIndex :=
      Int.ofNat_inj.mp (h.occupancy.trans hdist.symm)
    have hrange := BufferPair.occupancy_range q
    have h31 : distance q.size q.readIndex q.writeIndex < 2 ^ 31 := by omega
    refine ⟨hocc.mp (by rw [hsigned h31, hexact]), h31, fun hstart k hclimb hbefore => ?_⟩
    have hfits : ∀ s e, Iteration q element s e → s + (candidateDistance q s e + 1) / 2 < 2 ^ 32 :=
      fun s e hit => (hit.middle_exact_iff hread hwrite hsize).mp (h.middle s e hit)
    have hsum := hfits _ _ (climb_iteration hread hwrite hsize hstart hfits hclimb)
    have hslot : slot q.size q.readIndex (climbPosition (lastPosition q) k) =
        q.readIndex + climbPosition (lastPosition q) k := if_pos hbefore
    rw [candidateDistance_slot hread hsize climbPosition_le (lastPosition_lt hread hwrite),
      last_sub_climbPosition, hslot, Nat.add_assoc] at hsum
    rwa [climbPosition_succ]
  · rintro ⟨hcomparable, h31, hclimb⟩
    refine ⟨?_, fun s e hit => ?_, fun s e hit => ?_⟩
    · rw [hocc.mpr hcomparable, hsigned h31, hdist]
    · obtain ⟨hd, hdlt, _⟩ := hit.diff_exact hread hwrite hsize
      exact ⟨hd, hdlt⟩
    · have hcourse := hit.onCourse hread hwrite hsize hclimb
      exact (hit.middle_exact_iff hread hwrite hsize).mpr
        (hcourse.fits hread hwrite hsize hit.hasCandidates hclimb)

theorem exactIndices_of_size_le (h31 : q.size ≤ 2 ^ 31) : ExactIndices q element := by
  have hlt := distance_lt hread hwrite
  refine (exactIndices_iff hread hwrite hsize).mpr
    ⟨⟨by omega, by omega⟩, by omega, fun _ k _ _ => ?_⟩
  have hlast := lastPosition_lt hread hwrite
  have hclimb : climbPosition (lastPosition q) (k + 1) ≤ lastPosition q := climbPosition_le
  omega

end Search

section Chunks

/-- Three chunks across the end of a ring of four slots. -/
theorem exactIndices_iff_wrapped :
    ExactIndices (positioned 4 3 3 fun i => (⟨10 * UInt64.ofNat i⟩ : Chunk 1 10)) ⟨15⟩ :=
  (exactIndices_iff (by decide) (by decide) (by decide)).mpr
    ⟨⟨by decide, by decide⟩, by decide, fun _ _ _ _ =>
      Nat.lt_of_le_of_lt (Nat.add_le_add_left climbPosition_le 3) (by decide)⟩

/-- A full ring of `2^31 + 1` slots reports one element. -/
theorem not_exactIndices_of_full : ¬ ExactIndices
    (positioned 2147483649 0 2147483648 fun i => (⟨10 * UInt64.ofNat i⟩ : Chunk 1 10)) ⟨15⟩ := by
  intro h
  have hocc := h.occupancy
  revert hocc
  decide

-- From slot 4294967294 of 4294967295 the sum wraps, and the middle is one slot too low.
example : middleIndex (fresh (Chunk 1 10) 4294967295) 4294967294 4 = 0 ∧
    (4294967294 + (4 + 1) / 2) % 4294967295 = 1 := by decide

end Chunks
end DataHandling.BinarySearchQueueModel

import DataHandling.Buffer.BinarySearch
import Mathlib.Tactic.Ring

/-! `FixedRateQueueModel`: the index of a timestamp is computed from the distance to the
front, which is right as long as no element is missing. -/

namespace DataHandling
open MachineInt Cyclic Ordered ReadoutType

section GapFree
variable {T : Type} [ReadoutType T] {span : ℕ} {xs : List T}

theorem GapFree.tsNat_getElem (h : GapFree span xs) {k : ℕ} (hk : k < xs.length) :
    tsNat xs[k] = tsNat xs[0] + k * span := by
  induction k with
  | zero => simp
  | succ k ih =>
    have hstep := List.isChain_iff_getElem.mp h k hk
    rw [hstep, ih (by omega)]
    ring

theorem GapFree.strictlyIncreasing (h : GapFree span xs) (hspan : 0 < span) :
    StrictlyIncreasing tsNat xs := by
  rw [StrictlyIncreasing, List.pairwise_iff_getElem]
  intro i j hi hj hij
  rw [h.tsNat_getElem hi, h.tsNat_getElem hj]
  have := Nat.mul_lt_mul_of_pos_right hij hspan
  omega

theorem GapFree.lowerBound_eq (h : GapFree span xs) (hspan : 0 < span) {d : ℕ}
    (hpos : 0 < xs.length) (hd : d ≤ xs.length * span) :
    lowerBound tsNat xs (tsNat xs[0] + d) = if d % span ≠ 0 then d / span + 1 else d / span := by
  have hdiv := Nat.div_add_mod d span
  have hmod := Nat.mod_lt d hspan
  have hle : (if d % span ≠ 0 then d / span + 1 else d / span) ≤ xs.length := by
    split_ifs with hne
    · rw [Nat.succ_le_iff, Nat.div_lt_iff_lt_mul hspan]
      rcases Nat.lt_or_eq_of_le hd with hlt | rfl
      · exact hlt
      · simp at hne
    · exact Nat.div_le_of_le_mul (by rwa [Nat.mul_comm] at hd)
  apply Ordered.lowerBound_eq hle
  · intro i hi hlen
    rw [h.tsNat_getElem hlen]
    split_ifs at hi with hne
    · have := Nat.mul_le_mul_right span (Nat.lt_succ_iff.mp hi)
      rw [Nat.mul_comm (d / span)] at this
      omega
    · have := Nat.mul_le_mul_right span (Nat.succ_le_iff.mpr hi)
      rw [Nat.mul_comm (d / span), Nat.succ_mul] at this
      omega
  · intro hlen
    rw [h.tsNat_getElem hlen]
    split_ifs with hne
    · rw [Nat.succ_mul, Nat.mul_comm (d / span)]
      omega
    · rw [Nat.mul_comm (d / span)]
      omega

end GapFree

structure FixedRateQueueModel (T : Type) extends BinarySearchQueueModel T

namespace FixedRateQueueModel
open IterableQueueModel BinarySearchQueueModel

variable {T : Type} [ReadoutType T]

section Search
variable (q : IterableQueueModel T) (element : T)

def extrapolatedNewest (front : T) : UInt64 :=
  getTimestamp front + UInt64.ofNat q.occupancy * expectedTickDifference T * getNumFrames front

def targetIndex (front : T) : ℕ :=
  let timeTickDiff := getTimestamp element - getTimestamp front
  let numElementOffset :=
    u32 (timeTickDiff / expectedTickDifference T / getNumFrames front).toNat
  let target := u32 (q.readIndex + numElementOffset)
  if timeTickDiff % (expectedTickDifference T * getNumFrames front) ≠ 0 then u32 (target + 1)
  else target

def computedSearch : Option ℕ :=
  (q.records q.readIndex).bind fun front =>
    if getTimestamp front > getTimestamp element ∨
        getTimestamp element > extrapolatedNewest q front then some endIndex
    else some (wrapIndex q (targetIndex q element front))

end Search

def lowerBound (q : FixedRateQueueModel T) (element : T) (withErrors : Bool) : Option ℕ :=
  if withErrors then q.toBinarySearchQueueModel.lowerBound element withErrors
  else computedSearch q.toIterableQueueModel element

section Correctness
variable {q : IterableQueueModel T} {xs : List T} {element : T} {n tick : ℕ}

section Conversion
variable {front : T} (hextent : HasExtent front n tick)
include hextent

theorem extrapolatedNewest_toNat :
    (extrapolatedNewest q front).toNat =
      (tsNat front + q.occupancy * (n * tick)) % 2 ^ 64 := by
  rw [extrapolatedNewest, UInt64.toNat_add, UInt64.toNat_mul, UInt64.toNat_mul,
    UInt64.toNat_ofNat', hextent.numFrames, hextent.tick_eq, tsNat]
  rw [Nat.mod_mul_mod, Nat.mul_assoc, Nat.mod_mul_mod, Nat.add_mod_mod, Nat.mul_comm tick]

variable (q element) in
theorem outside_iff :
    (getTimestamp front > getTimestamp element ∨
        getTimestamp element > extrapolatedNewest q front) ↔
      tsNat element < tsNat front ∨
        (tsNat front + q.occupancy * (n * tick)) % 2 ^ 64 < tsNat element := by
  rw [gt_iff_lt, gt_iff_lt, UInt64.lt_iff_toNat_lt, UInt64.lt_iff_toNat_lt,
    extrapolatedNewest_toNat hextent]
  rfl

theorem targetIndex_eq (hle : tsNat front ≤ tsNat element) :
    targetIndex q element front =
      let d := tsNat element - tsNat front
      if d % (n * tick) ≠ 0 then u32 (u32 (q.readIndex + u32 (d / (n * tick))) + 1)
      else u32 (q.readIndex + u32 (d / (n * tick))) := by
  have hsub : (getTimestamp element - getTimestamp front).toNat =
      tsNat element - tsNat front :=
    UInt64.toNat_sub_of_le _ _ (UInt64.le_iff_toNat_le.mpr hle)
  have hmul : (expectedTickDifference T * getNumFrames front).toNat = n * tick := by
    rw [UInt64.toNat_mul, hextent.numFrames, hextent.tick_eq, Nat.mul_comm,
      Nat.mod_eq_of_lt hextent.span_lt]
  have hdiv : ((getTimestamp element - getTimestamp front) / expectedTickDifference T /
      getNumFrames front).toNat = (tsNat element - tsNat front) / (n * tick) := by
    rw [UInt64.toNat_div, UInt64.toNat_div, hsub, hextent.numFrames, hextent.tick_eq,
      Nat.div_div_eq_div_mul, Nat.mul_comm]
  have hmod : (getTimestamp element - getTimestamp front) %
      (expectedTickDifference T * getNumFrames front) ≠ 0 ↔
        (tsNat element - tsNat front) % (n * tick) ≠ 0 := by
    rw [Ne, ← UInt64.toNat_inj, UInt64.toNat_mod, hsub, hmul]
    rfl
  simp only [targetIndex, hdiv, hmod]

end Conversion

section Ring
variable (h : Represents q xs) (hgap : GapFree (n * tick) xs) (hne : xs ≠ [])
  (hextent : HasExtent (xs.head hne) n tick)
include h hgap hextent

/-- On a ring within the signed 32-bit range the computed index is the lower bound, for every
timestamp between the front and the extrapolated newest one. -/
theorem computedSearch_eq (hsize : q.size < 2147483648) :
    computedSearch q element =
      if tsNat element < tsNat (xs.head hne) ∨
          (tsNat (xs.head hne) + xs.length * (n * tick)) % 2 ^ 64 < tsNat element then
        some endIndex
      else
        some (slot q.size q.readIndex (Ordered.lowerBound tsNat xs (tsNat element))) := by
  have hpos := List.length_pos_iff.mpr hne
  have hspanpos := hextent.span_pos
  have hfront := h.stored 0 hpos
  rw [slot_zero h.read_lt] at hfront
  rw [List.head_eq_getElem] at hextent
  have hcond := outside_iff q element hextent
  rw [h.occupancy_eq hsize] at hcond
  rw [computedSearch, hfront, Option.bind_some, List.head_eq_getElem]
  simp only [hcond]
  by_cases hout : tsNat element < tsNat xs[0] ∨
      (tsNat xs[0] + xs.length * (n * tick)) % 2 ^ 64 < tsNat element
  · rw [if_pos hout, if_pos hout]
  rw [if_neg hout, if_neg hout]
  push Not at hout
  obtain ⟨hle, hmax⟩ := hout
  have hd : tsNat element - tsNat xs[0] ≤ xs.length * (n * tick) := by
    have := Nat.mod_le (tsNat xs[0] + xs.length * (n * tick)) (2 ^ 64)
    omega
  have hbound := hgap.lowerBound_eq hspanpos hpos hd
  rw [Nat.add_sub_cancel' hle] at hbound
  have hlb : Ordered.lowerBound tsNat xs (tsNat element) ≤ xs.length := lowerBound_le_length
  have hlen := h.length_lt
  have hread := h.read_lt
  rw [targetIndex_eq hextent hle, hbound]
  rw [hbound] at hlb
  congr 1
  dsimp only
  split_ifs at hlb ⊢ with hne
  · rw [u32_of_lt (n := _ / _) (by omega), u32_of_lt (n := q.readIndex + _) (by omega),
      u32_of_lt (by omega)]
    unfold wrapIndex slot
    split_ifs <;> omega
  · rw [u32_of_lt (n := _ / _) (by omega), u32_of_lt (by omega)]
    unfold wrapIndex slot
    split_ifs <;> omega

omit hgap in
theorem computedSearch_of_outside
    (hout : tsNat element < tsNat (xs.head hne) ∨
      (tsNat (xs.head hne) + q.occupancy * (n * tick)) % 2 ^ 64 < tsNat element) :
    computedSearch q element = some endIndex := by
  have hfront := h.front_records
  rw [h.front_eq, if_neg hne, Option.bind_some, List.head?_eq_some_head hne] at hfront
  rw [computedSearch, hfront, Option.bind_some, if_pos ((outside_iff q element hextent).mpr hout)]

omit hextent hgap in
include hne in
theorem computedSearch_isSome : (computedSearch q element).isSome := by
  have hfront := h.front_records
  rw [h.front_eq, if_neg hne, Option.bind_some, List.head?_eq_some_head hne] at hfront
  rw [computedSearch, hfront, Option.bind_some]
  split_ifs <;> rfl

/-- On a ring of any size the computed index is a live slot at or before the lower bound, for
every timestamp between the front and the newest one that is looked for. -/
theorem computedSearch_of_inside (hnewest : tsNat element ≤ tsNat (xs.getLast hne))
    (hle : tsNat (xs.head hne) ≤ tsNat element)
    (hmax : tsNat element ≤ (tsNat (xs.head hne) + q.occupancy * (n * tick)) % 2 ^ 64) :
    ∃ p ≤ Ordered.lowerBound tsNat xs (tsNat element),
      p < xs.length ∧ computedSearch q element = some (slot q.size q.readIndex p) := by
  have hpos := List.length_pos_iff.mpr hne
  have hspanpos := hextent.span_pos
  have hfront := h.stored 0 hpos
  rw [slot_zero h.read_lt] at hfront
  have hcond := outside_iff q element hextent
  rw [List.head_eq_getElem] at hextent hle hmax hcond
  rw [List.getLast_eq_getElem, hgap.tsNat_getElem (by omega)] at hnewest
  have hmul : (xs.length - 1) * (n * tick) ≤ xs.length * (n * tick) :=
    Nat.mul_le_mul_right _ (Nat.sub_le _ _)
  have hbound := hgap.lowerBound_eq hspanpos hpos
    (d := tsNat element - tsNat xs[0]) (by omega)
  rw [Nat.add_sub_cancel' hle] at hbound
  have hlb : Ordered.lowerBound tsNat xs (tsNat element) < xs.length := by
    refine Nat.lt_of_le_of_lt (lowerBound_le_of_le_key (p := xs.length - 1) (by omega) ?_)
      (by omega)
    rw [hgap.tsNat_getElem (by omega)]
    exact hnewest
  have hlen := h.length_lt
  have hread := h.read_lt
  have hsize := h.size_lt
  have hindex : computedSearch q element = some (wrapIndex q (u32 (q.readIndex +
      Ordered.lowerBound tsNat xs (tsNat element)))) := by
    rw [computedSearch, hfront, Option.bind_some, if_neg (by rw [hcond]; omega),
      targetIndex_eq hextent hle, hbound]
    rw [hbound] at hlb
    dsimp only
    congr 2
    unfold u32
    split_ifs at hlb ⊢ <;> omega
  rw [hindex]
  rcases Nat.lt_or_ge (q.readIndex + Ordered.lowerBound tsNat xs (tsNat element)) (2 ^ 32) with
    hlt | hwrap
  · refine ⟨_, le_rfl, hlb, congrArg some ?_⟩
    unfold wrapIndex u32 slot
    split_ifs <;> omega
  · -- past 2^32 the sum wraps to an earlier live slot
    refine ⟨Ordered.lowerBound tsNat xs (tsNat element) - (2 ^ 32 - q.size), by omega, by omega,
      congrArg some ?_⟩
    unfold wrapIndex u32 slot
    split_ifs <;> omega

theorem computedSearch_le (hnewest : tsNat element ≤ tsNat (xs.getLast hne))
    {index : ℕ} (hsearch : computedSearch q element = some index)
    (hgood : q.good index = true) :
    ∃ p ≤ Ordered.lowerBound tsNat xs (tsNat element),
      p < xs.length ∧ index = slot q.size q.readIndex p := by
  by_cases hout : tsNat element < tsNat (xs.head hne) ∨
      (tsNat (xs.head hne) + q.occupancy * (n * tick)) % 2 ^ 64 < tsNat element
  · rw [computedSearch_of_outside h hne hextent hout] at hsearch
    cases hsearch
    rw [good_endIndex] at hgood
    cases hgood
  · push Not at hout
    obtain ⟨p, hp, hlt, hslot⟩ := computedSearch_of_inside h hgap hne hextent hnewest hout.1 hout.2
    rw [hslot, Option.some.injEq] at hsearch
    exact ⟨p, hp, hlt, hsearch.symm⟩

end Ring
end Correctness

end FixedRateQueueModel
end DataHandling

import DataHandling.Foundation.Ordered
import Mathlib.Algebra.Group.Nat.Defs

/-! The readout data types that the buffers and handlers are templated over, and the
frames that an element of such a type carries. -/

namespace DataHandling

/-- What the templates use of a readout type. `valueInit` is `RDT()`, `frameTimestamp x i`
is `get_frame_iterator_timestamp` of the `i`-th frame between `x.begin()` and `x.end()`, and
`lt` is `operator<`, a strict weak order as every ordered container requires. -/
class ReadoutType (T : Type) where
  valueInit : T
  getTimestamp : T → UInt64
  setTimestamp : T → UInt64 → T
  getNumFrames : T → UInt64
  getFrameSize : T → ℕ
  getPayloadSize : T → ℕ
  frameTimestamp : T → ℕ → UInt64
  tickDifference : UInt64
  lt : T → T → Bool
  lt_asymm : ∀ x y, lt x y = true → lt y x = false
  lt_negTrans : ∀ x y z, lt x y = false → lt y z = false → lt x z = false

open ReadoutType

section Element
variable {T : Type} [ReadoutType T]

def expectedTickDifference (T : Type) [ReadoutType T] : UInt64 := tickDifference (T := T)

def tickSpan (x : T) : UInt64 := getNumFrames x * expectedTickDifference T

def tsNat (x : T) : ℕ := (getTimestamp x).toNat

theorem tsNat_lt (x : T) : tsNat x < 2 ^ 64 := (getTimestamp x).toNat_lt

/-- `operator<` puts a smaller timestamp first; elements of one timestamp may be told apart
by other keys. -/
def TimestampConsistent (T : Type) [ReadoutType T] : Prop :=
  ∀ x y : T, getTimestamp x < getTimestamp y → lt x y = true

theorem TimestampConsistent.lt_eq_true (h : TimestampConsistent T) {x y : T}
    (hxy : tsNat x < tsNat y) : lt x y = true := h x y (UInt64.lt_iff_toNat_lt.mpr hxy)

theorem TimestampConsistent.lt_eq_false (h : TimestampConsistent T) {x y : T}
    (hyx : tsNat y < tsNat x) : lt x y = false := lt_asymm y x (h.lt_eq_true hyx)

theorem TimestampConsistent.le_of_lt_eq_false (h : TimestampConsistent T) {x y : T}
    (hxy : lt x y = false) : tsNat y ≤ tsNat x := by
  by_contra hlt
  rw [h.lt_eq_true (Nat.not_le.mp hlt)] at hxy
  cases hxy

def TimestampOrder (T : Type) [ReadoutType T] : Prop :=
  ∀ x y : T, lt x y = true ↔ getTimestamp x < getTimestamp y

theorem TimestampOrder.lt_eq_true_iff (h : TimestampOrder T) (x y : T) :
    lt x y = true ↔ tsNat x < tsNat y :=
  (h x y).trans UInt64.lt_iff_toNat_lt

theorem TimestampOrder.lt_eq_false_iff (h : TimestampOrder T) (x y : T) :
    lt x y = false ↔ tsNat y ≤ tsNat x := by
  rw [← Bool.not_eq_true, h.lt_eq_true_iff, Nat.not_lt]

theorem TimestampOrder.consistent (h : TimestampOrder T) : TimestampConsistent T :=
  fun x y => (h x y).mpr

theorem timestamp_eq_iff (x y : T) : getTimestamp x = getTimestamp y ↔ tsNat x = tsNat y :=
  UInt64.toNat_inj.symm

structure Frame (T : Type) where
  element : T
  index : ℕ
  deriving DecidableEq

def Frame.ts (f : Frame T) : ℕ := (frameTimestamp f.element f.index).toNat

def frames (x : T) : List (Frame T) :=
  (List.range (getNumFrames x).toNat).map (Frame.mk x)

def storedFrames (xs : List T) : List (Frame T) := xs.flatMap frames

def Frame.inWindow (b e : UInt64) (f : Frame T) : Bool :=
  decide (b.toNat < f.ts + (expectedTickDifference T).toNat) && decide (f.ts < e.toNat)

/-- The layout shared by all elements of a type: `n` frames each, `tick` apart. -/
structure UniformLayout (T : Type) [ReadoutType T] (n tick : ℕ) : Prop where
  one_le_frames : 1 ≤ n
  one_le_tick : 1 ≤ tick
  span_lt : n * tick < 2 ^ 64
  numFrames : ∀ x : T, (getNumFrames x).toNat = n
  tick_eq : (expectedTickDifference T).toNat = tick
  get_set : ∀ (x : T) t, getTimestamp (setTimestamp x t) = t
  frameSize_pos : ∀ x : T, 0 < getFrameSize x
  payloadSize : ∀ x : T, getPayloadSize x = n * getFrameSize x
  frameTimestamp_eq : ∀ (x : T) i, i < n →
    frameTimestamp x i = getTimestamp x + UInt64.ofNat i * expectedTickDifference T

/-- The extent of one element: `n` frames, `tick` apart. -/
structure HasExtent (x : T) (n tick : ℕ) : Prop where
  one_le_frames : 1 ≤ n
  one_le_tick : 1 ≤ tick
  span_lt : n * tick < 2 ^ 64
  numFrames : (getNumFrames x).toNat = n
  tick_eq : (expectedTickDifference T).toNat = tick

theorem HasExtent.span_pos {x : T} {n tick : ℕ} (h : HasExtent x n tick) : 0 < n * tick :=
  Nat.mul_pos h.one_le_frames h.one_le_tick

theorem HasExtent.tickSpan_toNat {x : T} {n tick : ℕ} (h : HasExtent x n tick) :
    (tickSpan x).toNat = n * tick := by
  rw [tickSpan, UInt64.toNat_mul, h.numFrames, h.tick_eq, Nat.mod_eq_of_lt h.span_lt]

/-- Consecutive elements follow each other without a gap. -/
def GapFree (span : ℕ) (xs : List T) : Prop :=
  xs.IsChain fun x y => tsNat y = tsNat x + span

end Element

section Uniform
variable {T : Type} [ReadoutType T] {n tick : ℕ} (h : UniformLayout T n tick)
include h

theorem UniformLayout.hasExtent (x : T) : HasExtent x n tick :=
  ⟨h.one_le_frames, h.one_le_tick, h.span_lt, h.numFrames x, h.tick_eq⟩

theorem UniformLayout.span_pos : 0 < n * tick := Nat.mul_pos h.one_le_frames h.one_le_tick

theorem UniformLayout.tick_le_span : tick ≤ n * tick :=
  Nat.le_mul_of_pos_left tick h.one_le_frames

theorem UniformLayout.tickSpan_toNat (x : T) : (tickSpan x).toNat = n * tick :=
  (h.hasExtent x).tickSpan_toNat

end Uniform
end DataHandling

import DataHandling.ReadoutType

/-! A readout type of the uniform layout, for every number of frames and every tick: the
timestamp of its first frame, and 1024 bytes for each frame. -/

namespace DataHandling
open ReadoutType

structure Chunk (numFrames tick : UInt64) where
  timestamp : UInt64
  deriving DecidableEq, Repr

variable {numFrames tick : UInt64}

instance : ReadoutType (Chunk numFrames tick) where
  valueInit := ⟨0⟩
  getTimestamp x := x.timestamp
  setTimestamp _ ts := ⟨ts⟩
  getNumFrames _ := numFrames
  getFrameSize _ := 1024
  getPayloadSize _ := numFrames.toNat * 1024
  frameTimestamp x i := x.timestamp + UInt64.ofNat i * tick
  tickDifference := tick
  lt x y := decide (x.timestamp < y.timestamp)
  lt_asymm x y h := by
    rw [decide_eq_true_iff] at h
    exact decide_eq_false (UInt64.lt_asymm h)
  lt_negTrans x y z hxy hyz := by
    rw [decide_eq_false_iff_not, UInt64.not_lt] at hxy hyz ⊢
    exact UInt64.le_trans hyz hxy

theorem Chunk.timestampOrder (numFrames tick : UInt64) :
    TimestampOrder (Chunk numFrames tick) := fun _ _ => decide_eq_true_iff

theorem Chunk.uniformLayout (numFrames tick : UInt64) (hframes : 1 ≤ numFrames.toNat)
    (htick : 1 ≤ tick.toNat)
    (hspan : numFrames.toNat * tick.toNat < 2 ^ 64) :
    UniformLayout (Chunk numFrames tick) numFrames.toNat tick.toNat where
  one_le_frames := hframes
  one_le_tick := htick
  span_lt := hspan
  numFrames := fun _ => rfl
  tick_eq := rfl
  get_set := fun _ _ => rfl
  frameSize_pos := fun _ => Nat.zero_lt_succ 1023
  payloadSize := fun _ => rfl
  frameTimestamp_eq := fun _ _ _ => rfl

end DataHandling

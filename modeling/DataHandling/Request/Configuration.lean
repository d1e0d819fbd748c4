import DataHandling.Foundation.MachineInt
import Mathlib.Algebra.Order.Floor.Semiring
import Mathlib.Data.Rat.Floor

/-! What `DefaultRequestHandlerModel::conf` sets up and `scrap` takes down: the limits of the
cleanup and the output of the recording. -/

namespace DataHandling
open MachineInt

def toUnsigned (x : ℚ) : ℕ := u32 ⌊x⌋₊

theorem toUnsigned_share {p : ℚ} {n : ℕ} (h1 : p ≤ 1) (hn : n < 4294967296) :
    toUnsigned (p * n) = ⌊p * n⌋₊ := by
  have hn0 : (0 : ℚ) ≤ n := Nat.cast_nonneg n
  have hle : ⌊p * n⌋₊ ≤ n := by
    apply Nat.floor_le_of_le
    calc p * n ≤ 1 * n := mul_le_mul_of_nonneg_right h1 hn0
      _ = n := one_mul _
  exact u32_of_lt (Nat.lt_of_le_of_lt hle hn)

theorem toUnsigned_share_lt_iff {p : ℚ} {n : ℕ} (h0 : 0 ≤ p) (h1 : p ≤ 1) (hn : n < 4294967296)
    (m : ℕ) : toUnsigned (p * n) < m ↔ p * n < m := by
  rw [toUnsigned_share h1 hn, Nat.floor_lt (mul_nonneg h0 (Nat.cast_nonneg n))]

theorem one_le_toUnsigned_share_iff {p : ℚ} {n : ℕ} (h1 : p ≤ 1) (hn : n < 4294967296) :
    1 ≤ toUnsigned (p * n) ↔ 1 ≤ p * n := by
  rw [toUnsigned_share h1 hn, Nat.one_le_floor_iff]

structure DataRecorder where
  outputFile : String
  streamingBufferSize : ℕ
  compressionAlgorithm : String
  useODirect : Bool
  deriving DecidableEq

/-- What `conf` reads: the percentages, the size of the latency buffer, and the recorder. -/
structure RequestHandlerConf where
  popLimitPct : ℚ
  popSizePct : ℚ
  bufferSize : ℕ
  dataRecorder : Option DataRecorder

/-- `m_buffered_writer` is given by the output that it has open. -/
structure RequestHandler where
  popLimitPct : ℚ
  popSizePct : ℚ
  popLimitSize : ℕ
  bufferCapacity : ℕ
  maxRequestedElements : ℕ
  recordingConfigured : Bool
  outputFile : String
  streamBufferSize : ℕ
  bufferedWriter : Option DataRecorder
  deriving DecidableEq

/-- `BufferedFileWriter::open`, which throws if the file cannot be opened or the compression
algorithm is not known. -/
def openWriter (canOpen : DataRecorder → Bool) (recorder : DataRecorder) : Option DataRecorder :=
  if canOpen recorder ∧ recorder.compressionAlgorithm ∈ ["zstd", "lzma", "zlib", "None"] then
    some recorder
  else none

namespace RequestHandler

def init : RequestHandler where
  popLimitPct := 0
  popSizePct := 0
  popLimitSize := 0
  bufferCapacity := 0
  maxRequestedElements := 0
  recordingConfigured := false
  outputFile := ""
  streamBufferSize := 0
  bufferedWriter := none

def confRecording (canOpen : DataRecorder → Bool) (h : RequestHandler) (conf : RequestHandlerConf) :
    Option RequestHandler :=
  match h.recordingConfigured, conf.dataRecorder with
  | false, some dr =>
    (openWriter canOpen dr).map fun output =>
      { h with
        outputFile := dr.outputFile
        streamBufferSize := dr.streamingBufferSize
        bufferedWriter := some output
        recordingConfigured := true }
  | _, _ => some h

def percentageOutOfRange (h : RequestHandler) : Bool :=
  decide (h.popLimitPct < 0) || decide (h.popLimitPct > 1) || decide (h.popSizePct < 0) ||
    decide (h.popSizePct > 1)

def confLimits (h : RequestHandler) : RequestHandler :=
  { h with
    popLimitSize := toUnsigned (h.popLimitPct * h.bufferCapacity)
    maxRequestedElements :=
      let limit := toUnsigned (h.popLimitPct * h.bufferCapacity)
      ⌊(limit : ℚ) - limit * h.popSizePct⌋₊ }

/-- `conf`, with a flag for the error that it reports. There is no result when it throws. -/
def conf (canOpen : DataRecorder → Bool) (h : RequestHandler) (conf : RequestHandlerConf) :
    Option (Bool × RequestHandler) :=
  (({ h with
      popLimitPct := conf.popLimitPct
      popSizePct := conf.popSizePct
      bufferCapacity := conf.bufferSize } : RequestHandler).confRecording canOpen conf).map fun h =>
    if h.percentageOutOfRange then (true, h) else (false, h.confLimits)

def scrap (h : RequestHandler) : RequestHandler := { h with bufferedWriter := none }

def toPop (h : RequestHandler) (occupancy : ℕ) : ℕ := toUnsigned (h.popSizePct * occupancy)

section Limits
variable {canOpen : DataRecorder → Bool} {h h' : RequestHandler} {c : RequestHandlerConf}

theorem confRecording_limits (hconf : h.confRecording canOpen c = some h') :
    h'.popLimitPct = h.popLimitPct ∧ h'.popSizePct = h.popSizePct ∧
      h'.bufferCapacity = h.bufferCapacity := by
  unfold confRecording at hconf
  split at hconf
  · obtain ⟨output, _, rfl⟩ := Option.map_eq_some_iff.mp hconf
    exact ⟨rfl, rfl, rfl⟩
  · obtain rfl := Option.some.inj hconf
    exact ⟨rfl, rfl, rfl⟩

theorem conf_accepted (hconf : h.conf canOpen c = some (false, h')) :
    (0 ≤ c.popLimitPct ∧ c.popLimitPct ≤ 1) ∧ (0 ≤ c.popSizePct ∧ c.popSizePct ≤ 1) ∧
      h'.popSizePct = c.popSizePct ∧
      h'.popLimitSize = toUnsigned (c.popLimitPct * c.bufferSize) := by
  obtain ⟨h₁, hrec, heq⟩ := Option.map_eq_some_iff.mp hconf
  obtain ⟨hlimit, hsize, hcapacity⟩ := confRecording_limits hrec
  split_ifs at heq with hrange
  · cases heq
  · obtain ⟨-, rfl⟩ := Prod.mk.inj heq
    simp only [percentageOutOfRange, hlimit, hsize, Bool.not_eq_true, Bool.or_eq_false_iff,
      decide_eq_false_iff_not, not_lt, gt_iff_lt] at hrange
    obtain ⟨⟨⟨h1, h2⟩, h3⟩, h4⟩ := hrange
    refine ⟨⟨h1, h2⟩, ⟨h3, h4⟩, hsize, ?_⟩
    rw [confLimits, hlimit, hcapacity]

end Limits

end RequestHandler
end DataHandling

import DataHandling.Foundation.MachineInt
import Mathlib.Algebra.Ring.Nat
import Mathlib.Data.List.Basic

/-! `SourceEmulatorModel::run_produce` with the file that `FileSourceBuffer` reads for it. A payload
is the bytes of one element of the file, with timestamps, ids and errors written over them. -/

namespace DataHandling
open MachineInt

inductive FileWarning where
  | sizeLimitExceeded (filesize inputLimit : ℤ)
  | moreDataThanExpected (filesize chunkSize : ℤ)
  deriving DecidableEq

/-- `m_input_limit`, `m_chunk_size`, `m_element_count` and `m_input_buffer`. -/
structure FileSourceBuffer where
  inputLimit : ℤ
  chunkSize : ℤ
  elementCount : ℤ
  inputBuffer : List UInt8

namespace FileSourceBuffer

def create (inputLimit chunkSize : ℤ) : FileSourceBuffer := ⟨inputLimit, chunkSize, 0, []⟩

/-- `read`, which throws if there is no file, and only warns of its size. -/
def read (b : FileSourceBuffer) (file : Option (List UInt8)) :
    Option (FileSourceBuffer × List FileWarning) :=
  file.map fun contents =>
    let filesize : ℤ := contents.length
    ({ b with
        elementCount := if b.chunkSize > 0 then i32 (filesize / b.chunkSize) else b.elementCount
        inputBuffer := contents ++ b.inputBuffer },
      (if filesize > b.inputLimit then [.sizeLimitExceeded filesize b.inputLimit] else []) ++
        if b.chunkSize > 0 ∧ i32 (filesize % b.chunkSize) > 0 then
          [.moreDataThanExpected filesize b.chunkSize]
        else [])

def numElements (b : FileSourceBuffer) : ℤ := b.elementCount

def get (b : FileSourceBuffer) : List UInt8 := b.inputBuffer

end FileSourceBuffer

/-- The bits and the durations of errors, drawn by `generate`. -/
structure ErrorBits where
  errorBits : ℕ → UInt16
  errorOccurrences : ℕ → ℤ
  noErrorOccurrences : ℕ → ℤ

structure ErrorBitGenerator extends ErrorBits where
  errorBitsIndex : ℕ
  errorOccurrencesIndex : ℕ
  noErrorOccurrencesIndex : ℕ
  currentOccurrence : ℤ
  occurrenceCount : ℤ
  setErrorBits : Bool

namespace ErrorBitGenerator

def size : ℕ := 1000

def generated (bits : ErrorBits) : ErrorBitGenerator := ⟨bits, 0, 0, 0, 0, 0, true⟩

def turn (g : ErrorBitGenerator) : ErrorBitGenerator :=
  if g.setErrorBits then
    { g with
      errorBitsIndex := (g.errorBitsIndex + 1) % size
      errorOccurrencesIndex := (g.errorOccurrencesIndex + 1) % size
      setErrorBits := false
      currentOccurrence := g.noErrorOccurrences g.noErrorOccurrencesIndex
      occurrenceCount := 0 }
  else
    { g with
      noErrorOccurrencesIndex := (g.noErrorOccurrencesIndex + 1) % size
      setErrorBits := true
      currentOccurrence := g.errorOccurrences g.errorOccurrencesIndex
      occurrenceCount := 0 }

def next (g : ErrorBitGenerator) : UInt16 × ErrorBitGenerator :=
  let g := if g.occurrenceCount ≥ g.currentOccurrence then g.turn else g
  let g := { g with occurrenceCount := g.occurrenceCount + 1 }
  (if g.setErrorBits ∧ g.currentOccurrence ≠ 0 then g.errorBits g.errorBitsIndex else 0, g)

def nexts : ℕ → ErrorBitGenerator → List UInt16 × ErrorBitGenerator
  | 0, g => ([], g)
  | n + 1, g => (g.next.1 :: (nexts n g.next.2).1, (nexts n g.next.2).2)

end ErrorBitGenerator

/-- `SourceEmulatorPatternGenerator`. -/
structure PatternGenerator where
  channel : List ℤ
  index : ℕ

/-- `get_channel_number`. An empty list has no channel, but the code reads one all the same. -/
def PatternGenerator.getChannelNumber (g : PatternGenerator) : Option ℤ × PatternGenerator :=
  let index := if g.index = g.channel.length then 0 else g.index
  (g.channel[index]?, { g with index := index + 1 })

/-- What the emulator uses of a readout type, on the bytes of a value. An ADC pattern may be
refused. -/
structure EmulatedType where
  sizeOf : ℕ
  sizeOf_pos : 0 < sizeOf
  sizeOf_lt : sizeOf < 2 ^ 31
  getTimestamp : List UInt8 → UInt64
  getNumFrames : List UInt8 → ℕ
  fakeTimestamps : UInt64 → UInt64 → List UInt8 → List UInt8
  fakeGeoid : ℤ → ℤ → ℤ → List UInt8 → List UInt8
  fakeFrameErrors : List UInt16 → List UInt8 → List UInt8
  fakeAdcPattern : ℤ → List UInt8 → Option (List UInt8)

/-- The configured emulator, with a dropout pattern that is not empty. -/
structure EmulatorConf where
  readoutType : EmulatedType
  fileSource : FileSourceBuffer
  dropouts : List Bool
  dropouts_ne : dropouts ≠ []
  framesPerTick : UInt16
  timeTickDiff : UInt64
  crateid : ℤ
  slotid : ℤ
  linkid : ℤ
  generatePeriodicAdcPattern : Bool
  timeToWait : UInt32

/-- A payload that is sent: where its bytes are copied from, these bytes, and what becomes of
them. With a channel read from an empty list that is not known. -/
structure SentPayload where
  start : ℕ
  copied : List UInt8
  payload : Option (List UInt8)

/-- The variables of `run_produce`, the generators, and the payloads sent so far. -/
structure SourceEmulator where
  offset : ℕ
  dropoutIndex : ℕ
  timestamp : UInt64
  errorBitGenerator : ErrorBitGenerator
  patternGenerator : PatternGenerator
  patternGeneratorPreviousTs : UInt64
  packetCount : Int32
  packetCountTot : Int32
  sent : List SentPayload

namespace EmulatorConf
variable (conf : EmulatorConf)

def source : List UInt8 := conf.fileSource.get

def numElem : ℕ := (conf.fileSource.numElements % 4294967296).toNat

def firstTimestamp (now : Option UInt64) : UInt64 :=
  match now with
  | some currentTime => 625 * currentTime / 10
  | none => conf.readoutType.getTimestamp conf.source

def elementStart (offset : ℕ) : ℕ := u64 (offset * conf.readoutType.sizeOf)

def nextOffset (offset : ℕ) : ℕ :=
  if offset = conf.numElem ∨
      u64 (u32 (offset + 1) * conf.readoutType.sizeOf) > conf.source.length then 0
  else offset

end EmulatorConf

namespace SourceEmulator
variable (conf : EmulatorConf)

def init (now : Option UInt64) (errors : ErrorBitGenerator) (patterns : PatternGenerator)
    (previousTs : UInt64) : SourceEmulator where
  offset := 0
  dropoutIndex := 0
  timestamp := conf.firstTimestamp now
  errorBitGenerator := errors
  patternGenerator := patterns
  patternGeneratorPreviousTs := previousTs
  packetCount := 0
  packetCountTot := 0
  sent := []

/-- An element is copied, written over and sent. A failure to send it is only warned of. -/
def sendElement (s : SourceEmulator) (offset : ℕ) : SourceEmulator :=
  let start := conf.elementStart offset
  let copied := (conf.source.drop start).take conf.readoutType.sizeOf
  let errors := s.errorBitGenerator.nexts (conf.readoutType.getNumFrames conf.source)
  let payload := conf.readoutType.fakeFrameErrors errors.1
    (conf.readoutType.fakeGeoid conf.crateid conf.slotid conf.linkid
      (conf.readoutType.fakeTimestamps s.timestamp conf.timeTickDiff copied))
  let lifts := conf.generatePeriodicAdcPattern &&
    decide (s.timestamp - s.patternGeneratorPreviousTs > conf.timeToWait.toUInt64)
  let channel := s.patternGenerator.getChannelNumber
  { s with
    offset := u32 (offset + 1)
    errorBitGenerator := errors.2
    patternGenerator := if lifts then channel.2 else s.patternGenerator
    patternGeneratorPreviousTs := if lifts then s.timestamp else s.patternGeneratorPreviousTs
    packetCount := s.packetCount + 1
    packetCountTot := s.packetCountTot + 1
    sent := s.sent ++ [⟨start, copied,
      if lifts then
        channel.1.map fun number => (conf.readoutType.fakeAdcPattern number payload).getD payload
      else some payload⟩] }

def frame (s : SourceEmulator) : SourceEmulator :=
  let offset := conf.nextOffset s.offset
  let createFrame := conf.dropouts.getD s.dropoutIndex false
  let s := { s with offset, dropoutIndex := (s.dropoutIndex + 1) % conf.dropouts.length }
  if createFrame then s.sendElement conf offset else s

def frames : ℕ → SourceEmulator → SourceEmulator
  | 0, s => s
  | i + 1, s => frames i (s.frame conf)

/-- A round of the loop while the run marker is set; at its end the rate is limited. -/
def tick (s : SourceEmulator) : SourceEmulator :=
  let s := s.frames conf conf.framesPerTick.toNat
  { s with
    timestamp := s.timestamp +
      conf.timeTickDiff * UInt64.ofNat (conf.readoutType.getNumFrames conf.source) }

def runProduce : ℕ → SourceEmulator → SourceEmulator
  | 0, s => s
  | n + 1, s => runProduce n (s.tick conf)

end SourceEmulator
end DataHandling

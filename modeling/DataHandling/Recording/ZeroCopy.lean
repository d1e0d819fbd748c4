import DataHandling.Recording.Positions

/-! `ZeroCopyRecordingRequestHandlerModel::record`, which writes the memory of the ring to a file in
chunks of bytes, beside the producer and the inherited cleanup. Pointers into the ring are byte
offsets from `start_of_buffer()`; a write of the operating system copies one byte at a time. -/

namespace DataHandling
open ReadoutType IterableQueueModel

/-- The address of the buffer, its alignment, the chunk size, and the raw bytes of an element. -/
structure ZeroCopyConf (T : Type) where
  startOfBuffer : ℕ
  alignmentSize : ℕ
  chunkSize : ℕ
  fixedPayloadSize : ℕ
  rawBytes : T → List UInt8

/-- Where the recording thread stands: up to `testedLoaded` in the search of an aligned element,
then in the loop over chunks, with the end pointer and the number of chunks considered. -/
inductive ZeroCopyRecorder where
  | idle
  | started
  | outer
  | waiting
  | checking
  | beginning
  | beginLoaded (currentRead : ℕ)
  | beginFound (begin : ℕ)
  | aligning (begin : ℕ)
  | advancing (begin : ℕ)
  | advancingLoaded (begin currentRead : ℕ)
  | stepped (begin : ℕ)
  | steppedLoaded (begin currentRead : ℕ)
  | tested (begin : ℕ)
  | testedLoaded (begin currentRead : ℕ)
  | endLoading
  | endLoaded (currentWrite : ℕ)
  | chunks (currentEnd : ℤ) (considered : ℕ)
  | copying (currentEnd : ℤ) (considered source left target : ℕ)
  | updating (currentEnd : ℤ) (considered : ℕ)
  | completing (source left : ℕ)
  | finishing
  deriving DecidableEq

/-- The variables of the base class, those of the recording thread, the element that the recording
began with, and the bytes in the file. -/
structure ZeroCopySystem (T : Type) extends RecordingSystem T where
  thread : ZeroCopyRecorder
  writePointer : Option ℕ
  startElement : Option T
  file : List UInt8

inductive ZeroCopyAction (T : Type) where
  | write (payload : T)
  | cleanupCheck
  | cleanup
  | record (duration : ℕ)
  | recorder
  | timeUp

def chunksConsidered : ℕ := 100

namespace ZeroCopySystem
variable {T : Type}

def init (queue : IterableQueueModel T) (xs : List T) : ZeroCopySystem T where
  toRecordingSystem := RecordingSystem.init queue xs
  thread := .idle
  writePointer := none
  startElement := none
  file := []

def goTo (s : ZeroCopySystem T) (thread : ZeroCopyRecorder) : ZeroCopySystem T :=
  { s with thread := thread }

def record (s : ZeroCopySystem T) (duration : ℕ) : Option (ZeroCopySystem T) :=
  if s.recording ∨ duration = 0 then some s
  else match s.thread with
    | .idle =>
      some { s with
        recording := true
        thread := .started
        writePointer := none
        startElement := none
        file := [] }
    | _ => none

variable (conf : ZeroCopyConf T)

def byteAt (s : ZeroCopySystem T) (offset : ℕ) : Option UInt8 :=
  (s.memory (offset / conf.fixedPayloadSize)).bind fun x =>
    (conf.rawBytes x)[offset % conf.fixedPayloadSize]?

def endOfBuffer (s : ZeroCopySystem T) : ℕ := s.queue.size * conf.fixedPayloadSize

/-- The pointer that `back()` returns with the write index that it has loaded. -/
def backPointer (s : ZeroCopySystem T) (currentWrite : ℕ) : ℤ :=
  if currentWrite = s.queue.readIndex then -(conf.startOfBuffer : ℤ)
  else IterableQueueModel.currentLast { s.queue with writeIndex := currentWrite } *
    conf.fixedPayloadSize

def considerChunk (s : ZeroCopySystem T) (currentEnd : ℤ) (considered writePointer : ℕ) :
    ZeroCopyRecorder :=
  if (writePointer : ℤ) + conf.chunkSize < currentEnd then
    .copying currentEnd considered writePointer conf.chunkSize (writePointer + conf.chunkSize)
  else if currentEnd < writePointer then
    if writePointer + conf.chunkSize < s.endOfBuffer conf then
      .copying currentEnd considered writePointer conf.chunkSize (writePointer + conf.chunkSize)
    else
      -- the last bit of the buffer
      .copying currentEnd considered writePointer (s.endOfBuffer conf - writePointer) 0
  else .updating currentEnd considered

def completeFrame (writePointer : Option ℕ) : ZeroCopyRecorder :=
  match writePointer with
  | none => .finishing
  | some wp =>
    let lastStartedFrame := wp / conf.fixedPayloadSize * conf.fixedPayloadSize
    if lastStartedFrame ≠ wp then
      .completing wp (lastStartedFrame + conf.fixedPayloadSize - wp)
    else .finishing

variable [ReadoutType T]

def stepThread (s : ZeroCopySystem T) : Option (ZeroCopySystem T) :=
  match s.thread with
  | .idle => none
  | .started => some { s with nextTimestampToRecord := 0, thread := .outer }
  | .outer =>
    some (s.goTo
      (if s.cleanupRequested = false ∨ s.nextTimestampToRecord = 0 then .waiting else .outer))
  | .waiting =>
    if s.mutexFree ∧ s.cleanupRequested = false then some (s.goTo .checking) else none
  | .checking =>
    some (s.goTo (if s.nextTimestampToRecord = 0 then .beginning else .endLoading))
  | .beginning => some (s.goTo (.beginLoaded s.queue.readIndex))
  | .beginLoaded currentRead =>
    some (s.goTo (if currentRead = s.queue.writeIndex then .outer else .beginFound currentRead))
  | .beginFound begin =>
    (s.memory begin).map fun x =>
      { s with nextTimestampToRecord := getTimestamp x, thread := .aligning begin }
  | .aligning begin =>
    if (conf.startOfBuffer + begin * conf.fixedPayloadSize) % conf.alignmentSize ≠ 0 then
      some (s.goTo (.advancing begin))
    else
      some { s with
        writePointer := some (begin * conf.fixedPayloadSize)
        startElement := s.memory begin
        thread := .endLoading }
  -- `++begin`, and one more call of `good()`
  | .advancing begin => some (s.goTo (.advancingLoaded begin s.queue.readIndex))
  | .advancingLoaded begin currentRead =>
    some (s.goTo (.stepped
      (if RecordingSystem.goodOf s.queue currentRead begin then s.queue.nextRecord begin
        else begin)))
  | .stepped begin => some (s.goTo (.steppedLoaded begin s.queue.readIndex))
  | .steppedLoaded begin currentRead =>
    some (s.goTo (.tested
      (if RecordingSystem.goodOf s.queue currentRead begin then begin else endIndex)))
  | .tested begin => some (s.goTo (.testedLoaded begin s.queue.readIndex))
  | .testedLoaded begin currentRead =>
    if RecordingSystem.goodOf s.queue currentRead begin then some (s.goTo (.aligning begin))
    else
      -- `continue` goes on in the search, behind the end of the buffer
      some { s with nextTimestampToRecord := 0, thread := .aligning begin }
  | .endLoading => some (s.goTo (.endLoaded s.queue.writeIndex))
  | .endLoaded currentWrite => some (s.goTo (.chunks (s.backPointer conf currentWrite) 0))
  | .chunks currentEnd considered =>
    if considered < chunksConsidered then
      s.writePointer.map fun wp => s.goTo (s.considerChunk conf currentEnd considered wp)
    else some (s.goTo .outer)
  | .copying currentEnd considered _ 0 target =>
    some { s with
      writePointer := some (if target = s.endOfBuffer conf then 0 else target)
      thread := .updating currentEnd considered }
  | .copying currentEnd considered source (left + 1) target =>
    (s.byteAt conf source).map fun byte =>
      { s with
        file := s.file ++ [byte]
        thread := .copying currentEnd considered (source + 1) left target }
  | .updating currentEnd considered =>
    (s.writePointer.bind fun wp => s.memory (wp / conf.fixedPayloadSize)).map fun x =>
      { s with
        nextTimestampToRecord := getTimestamp x
        thread := .chunks currentEnd (considered + 1) }
  | .completing _ 0 => some (s.goTo .finishing)
  | .completing source (left + 1) =>
    (s.byteAt conf source).map fun byte =>
      { s with file := s.file ++ [byte], thread := .completing (source + 1) left }
  | .finishing =>
    some { s with
      nextTimestampToRecord := 18446744073709551615
      recording := false
      thread := .idle }

def timeUp (s : ZeroCopySystem T) : Option (ZeroCopySystem T) :=
  match s.thread with
  | .outer => some (s.goTo (completeFrame conf s.writePointer))
  | _ => none

def step (handler : RequestHandler) (s : ZeroCopySystem T) :
    ZeroCopyAction T → Option (ZeroCopySystem T)
  | .write payload => some { s with toRecordingSystem := s.toRecordingSystem.write payload }
  | .cleanupCheck =>
    (s.toRecordingSystem.cleanupCheck handler).map fun b => { s with toRecordingSystem := b }
  | .cleanup =>
    (s.toRecordingSystem.stepCleaner handler).map fun b => { s with toRecordingSystem := b }
  | .record duration => s.record duration
  | .recorder => s.stepThread conf
  | .timeUp => s.timeUp conf

end ZeroCopySystem
end DataHandling

import DataHandling.Buffer.BufferSlots
import DataHandling.Consumer.ConsumerSystem
import DataHandling.Foundation.BoundedFifo

/-! The post-processing of `TaskRawDataProcessorModel` beside the consumer, the cleanup and
`DataHandlingModel::stop`. A pointer goes from the buffer into the queue of each task, and from
there to the task. Every access to a marker or a queue, every pop and every invocation is a step
of its own; requests, which only delay a cleanup, are left out. -/

namespace DataHandling
open ReadoutType

/-- A pointer to a slot, with the element that was there when it was taken and that element's
number. -/
structure SlotPointer (T Slot : Type) where
  slot : Slot
  element : Option (ℕ × T)
  deriving DecidableEq

/-- Where a thread stands in `run_post_processing_thread`; a null pointer is none. -/
inductive TaskThread (T Slot : Type) where
  | ready
  | atMarker
  | atSize
  | atRead
  | invoking (pointer : Option (SlotPointer T Slot))

/-- A post-processing thread with its queue, which is full with one element less than its size. -/
structure PostProcessor (T Slot : Type) (queueSizes : ℕ) where
  queue : BoundedFifo (Option (SlotPointer T Slot)) (queueSizes - 1)
  thread : TaskThread T Slot

/-- Where the consumer is in the loop over a pass, or in `postprocess_item` before the queue with
a number; a pass goes on afterwards. -/
inductive PointerWork (T Slot : Type) where
  | idle
  | passing (it endIter : Slot)
  | queueing (pointer : Option (SlotPointer T Slot)) (i : ℕ) (pass : Option (Slot × Slot))

/-- Where `DataHandlingModel::stop` stands; a flush pops a number of elements. -/
inductive StopPhase where
  | stopped
  | running
  | awaitingCleanup
  | awaitingConsumer
  | flushing
  | popping (left : ℕ)
  | stoppingProcessor
  | awaitingThreads
  deriving DecidableEq

/-- An invocation of a task, with the element then found in the slot. -/
structure Invocation (T Slot : Type) where
  pointer : Option (SlotPointer T Slot)
  found : Option (ℕ × T)
  deriving DecidableEq

/-- The consumer with the number of the element last constructed in each slot, the threads with
their run markers, and the invocations so far. -/
structure PostProcessingSystem (LB T P Slot : Type) (queueSizes : ℕ) extends
    ConsumerSystem LB T P where
  numbers : Slot → ℕ
  work : PointerWork T Slot
  runMarker : Bool
  consumerThread : Bool
  cleanupMarker : Bool
  cleanupThread : Bool
  processorMarker : Bool
  processors : List (PostProcessor T Slot queueSizes)
  stopPhase : StopPhase
  invocations : List (Invocation T Slot)

inductive PostProcessingAction (T : Type) where
  | start
  | stop
  | stopping
  | preprocess (payload : T) (cutoffTimestamp : UInt64)
  | write
  | postprocess
  | startPass
  | nextPointer
  | queueWrite
  | consumerThreadEnds
  | cleanup (action : ConsumerAction T)
  | cleanupThreadEnds
  | thread (i : ℕ)

def PointerWork.pointers {T Slot : Type} : PointerWork T Slot → List (Option (SlotPointer T Slot))
  | .queueing pointer _ _ => [pointer]
  | _ => []

def TaskThread.pointers {T Slot : Type} : TaskThread T Slot → List (Option (SlotPointer T Slot))
  | .invoking pointer => [pointer]
  | _ => []

def PostProcessor.pointers {T Slot : Type} {queueSizes : ℕ} (x : PostProcessor T Slot queueSizes) :
    List (Option (SlotPointer T Slot)) :=
  x.queue.contents ++ x.thread.pointers

namespace PostProcessingSystem
variable {LB T P Slot : Type} {queueSizes : ℕ} [ReadoutType T] [DecidableEq Slot]
  [LatencyBuffer LB T] [BufferSlots LB T Slot] (callbackMode : Bool) (conf : ConsumerConf T P)

def init (queueSizes : ℕ) (lb : LB) (processor : P) (tasks : ℕ) :
    PostProcessingSystem LB T P Slot queueSizes where
  toConsumerSystem := .init lb processor
  numbers := fun _ => 0
  work := .idle
  runMarker := false
  consumerThread := false
  cleanupMarker := false
  cleanupThread := false
  processorMarker := false
  processors := List.replicate tasks ⟨.empty, .ready⟩
  stopPhase := .stopped
  invocations := []

def elementAt (s : PostProcessingSystem LB T P Slot queueSizes) (slot : Slot) : Option (ℕ × T) :=
  (BufferSlots.content s.latencyBuffer slot).map fun x => (s.numbers slot, x)

def pointTo (s : PostProcessingSystem LB T P Slot queueSizes) (slot : Slot) : SlotPointer T Slot :=
  ⟨slot, s.elementAt slot⟩

/-- The pointers on their way to a task: in `postprocess_item`, in a queue, or read by a thread
that has not yet invoked its task. -/
def pending (s : PostProcessingSystem LB T P Slot queueSizes) :
    List (Option (SlotPointer T Slot)) :=
  s.work.pointers ++ s.processors.flatMap PostProcessor.pointers

def start (s : PostProcessingSystem LB T P Slot queueSizes) :
    PostProcessingSystem LB T P Slot queueSizes :=
  { s with
    toConsumerSystem := { s.toConsumerSystem with
      endWinTs := 0
      firstCycle := true
      processedElement := valueInit
      numPayloads := 0
      sumPayloads := 0
      statsPacketCount := 0
      numPayloadsOverwritten := 0 }
    runMarker := true
    consumerThread := !callbackMode
    cleanupMarker := true
    cleanupThread := true
    processorMarker := true
    processors := s.processors.map fun x => { x with thread := .atMarker }
    stopPhase := .running }

/-- The next step of `stop`: each thread is waited for, then the buffer is flushed, and the
processor comes last. -/
def stopping (s : PostProcessingSystem LB T P Slot queueSizes) :
    Option (PostProcessingSystem LB T P Slot queueSizes) :=
  match s.stopPhase with
  | .stopped | .running => none
  | .awaitingCleanup =>
    if s.cleanupThread then none else some { s with stopPhase := .awaitingConsumer }
  | .awaitingConsumer =>
    if s.consumerThread then none else some { s with stopPhase := .flushing }
  | .flushing => some { s with stopPhase := .popping (LatencyBuffer.occupancy s.latencyBuffer) }
  | .popping 0 => some { s with stopPhase := .stoppingProcessor }
  | .popping (left + 1) =>
    (LatencyBuffer.pop 1 s.latencyBuffer).map fun lb =>
      { s with
        toConsumerSystem := { s.toConsumerSystem with latencyBuffer := lb }
        stopPhase := .popping left }
  | .stoppingProcessor =>
    some { s with processorMarker := false, stopPhase := .awaitingThreads }
  | .awaitingThreads =>
    if s.processors.all fun x => x.thread matches .ready then some { s with stopPhase := .stopped }
    else none

def consumes (s : PostProcessingSystem LB T P Slot queueSizes) : Bool :=
  (callbackMode || s.consumerThread) && s.work matches .idle

/-- A step of the consumer or of `cleanup` that takes no pointer. -/
def lift (s : PostProcessingSystem LB T P Slot queueSizes) (a : ConsumerAction T) :
    Option (PostProcessingSystem LB T P Slot queueSizes) :=
  (ConsumerSystem.step conf s.toConsumerSystem a).map fun c => { s with toConsumerSystem := c }

def write (s : PostProcessingSystem LB T P Slot queueSizes) :
    Option (PostProcessingSystem LB T P Slot queueSizes) :=
  match s.phase with
  | .preprocessed payload callback =>
    some { s with
      toConsumerSystem := s.toConsumerSystem.write conf payload callback
      numbers :=
        if (LatencyBuffer.write s.latencyBuffer payload).1 then
          Function.update s.numbers (BufferSlots.writeSlot s.latencyBuffer payload)
            (s.accepted.length + 1)
        else s.numbers }
  | _ => none

def postprocess (s : PostProcessingSystem LB T P Slot queueSizes) :
    Option (PostProcessingSystem LB T P Slot queueSizes) :=
  match s.phase with
  | .written =>
    some { s with
      toConsumerSystem := { s.toConsumerSystem with phase := .idle }
      work := .queueing ((BufferSlots.backSlot s.latencyBuffer).map s.pointTo) 0 none }
  | _ => none

def startPass (s : PostProcessingSystem LB T P Slot queueSizes) :
    Option (PostProcessingSystem LB T P Slot queueSizes) :=
  if conf.processingDelayTicks = 0 ∨ LatencyBuffer.occupancy s.latencyBuffer = 0 then some s
  else
    (LatencyBuffer.back s.latencyBuffer).bind fun tail =>
      s.toConsumerSystem.seededElement.bind fun processed =>
        if ConsumerSystem.passIsDue conf tail processed then
          (LatencyBuffer.lowerBound s.latencyBuffer processed false).bind fun startIter =>
            (LatencyBuffer.lowerBound s.latencyBuffer
              (ConsumerSystem.endElement conf tail processed) false).map fun endIter =>
                { s with
                  toConsumerSystem := { s.toConsumerSystem with
                    endWinTs := getTimestamp tail - conf.processingDelayTicks
                    firstCycle := false
                    processedElement := ConsumerSystem.endElement conf tail processed }
                  work := .passing (BufferSlots.iterSlot s.latencyBuffer startIter)
                    (BufferSlots.iterSlot s.latencyBuffer endIter) }
        else
          some { s with
            toConsumerSystem :=
              { s.toConsumerSystem with firstCycle := false, processedElement := processed } }

def nextPointer (s : PostProcessingSystem LB T P Slot queueSizes) :
    Option (PostProcessingSystem LB T P Slot queueSizes) :=
  match s.work with
  | .passing it endIter =>
    some { s with
      work :=
        if it = endIter then .idle
        else .queueing (some (s.pointTo it)) 0 (some (it, endIter)) }
  | _ => none

/-- A pointer is written to the next queue, or lost if the queue is full. After the last one it
counts as handed over, and a pass moves on. -/
def queueWrite (s : PostProcessingSystem LB T P Slot queueSizes) :
    Option (PostProcessingSystem LB T P Slot queueSizes) :=
  match s.work with
  | .queueing pointer i pass =>
    match s.processors[i]? with
    | some x =>
      some { s with
        processors := s.processors.set i { x with queue := (x.queue.push pointer).2 }
        work := .queueing pointer (i + 1) pass }
    | none =>
      some { s with
        toConsumerSystem :=
          s.toConsumerSystem.handOver [pointer.bind fun p => p.element.map Prod.snd]
        work :=
          match pass with
          | none => .idle
          | some (it, endIter) =>
            .passing (BufferSlots.nextSlot s.latencyBuffer it) endIter }
  | _ => none

/-- The next step of a post-processing thread: the tests of its loop, the read, and the task. -/
def stepThread (s : PostProcessingSystem LB T P Slot queueSizes) (i : ℕ)
    (x : PostProcessor T Slot queueSizes) :
    Option (PostProcessingSystem LB T P Slot queueSizes) :=
  match x.thread with
  | .ready => none
  | .atMarker =>
    some { s with
      processors := s.processors.set i
        { x with thread := if s.processorMarker then .atRead else .atSize } }
  | .atSize =>
    some { s with
      processors := s.processors.set i
        { x with thread := if x.queue.contents.length > 0 then .atRead else .ready } }
  | .atRead =>
    some { s with
      processors := s.processors.set i
        ⟨x.queue.take.2.2,
          match x.queue.take.2.1 with
          | some pointer => .invoking pointer
          | none => .atMarker⟩ }
  | .invoking pointer =>
    some { s with
      processors := s.processors.set i { x with thread := .atMarker }
      invocations := s.invocations ++ [⟨pointer, pointer.bind fun p => s.elementAt p.slot⟩] }

def step (s : PostProcessingSystem LB T P Slot queueSizes) :
    PostProcessingAction T → Option (PostProcessingSystem LB T P Slot queueSizes)
  | .start => if s.stopPhase = .stopped then some (s.start callbackMode) else none
  | .stop =>
    if s.stopPhase = .running then
      some { s with runMarker := false, cleanupMarker := false, stopPhase := .awaitingCleanup }
    else none
  | .stopping => s.stopping
  | .preprocess payload cutoffTimestamp =>
    if s.consumes callbackMode then
      s.lift conf (.preprocess payload cutoffTimestamp callbackMode)
    else none
  | .write => s.write conf
  | .postprocess => s.postprocess
  | .startPass =>
    -- there is no deferred pass for a callback
    if s.consumerThread ∧ s.consumes callbackMode ∧ s.phase matches .idle then s.startPass conf
    else none
  | .nextPointer => s.nextPointer
  | .queueWrite => s.queueWrite
  -- the loop of `run_consume` is left between two payloads
  | .consumerThreadEnds =>
    if s.runMarker = false ∧ s.consumes callbackMode ∧ s.phase matches .idle then
      some { s with consumerThread := false }
    else none
  | .cleanup action =>
    match s.cleanupThread, action with
    | true, .startCleanup | true, .popOne _ | true, .removeErrors => s.lift conf action
    | _, _ => none
  | .cleanupThreadEnds =>
    if s.cleanupMarker = false ∧ s.cleanupPhase = .idle then some { s with cleanupThread := false }
    else none
  | .thread i => s.processors[i]?.bind (s.stepThread i)

end PostProcessingSystem
end DataHandling

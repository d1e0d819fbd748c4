import DataHandling.Buffer.QueueContents
import DataHandling.Request.Configuration

/-! The readout behind `RawDataHandlerBase` and its commands: what `init`, `do_conf`, `do_start`,
`do_stop` and `do_scrap` set up and take down in the latency buffer, the raw data processor and
the request handler. -/

namespace DataHandling
open MachineInt IterableQueueModel

/-- What the process offers: a build with `libnuma`, memory, and files to record to. -/
structure Platform where
  withLibnuma : Bool
  hasMemory : ℕ → Bool
  canOpen : DataRecorder → Bool

structure AllocationFlags where
  numaAware : Bool
  numaNode : UInt8
  intrinsicAllocator : Bool
  alignmentSize : ℕ
  deriving DecidableEq

def AllocationFlags.default : AllocationFlags := ⟨false, 0, false, 0⟩

structure LatencyBufferConf where
  size : ℕ
  flags : AllocationFlags
  preallocation : Bool

/-- An `IterableQueueModel` with what `conf` and `scrap` change. -/
structure AllocatedRing (T : Type) where
  queue : IterableQueueModel T
  flags : AllocationFlags
  recordsNull : Bool
  prefillReady : Bool
  prefillDone : Bool

namespace AllocatedRing
variable {T : Type}

def init (T : Type) : AllocatedRing T := ⟨fresh T 2, .default, false, false, false⟩

/-- Which flags lead to an allocation; with the others `records_` is left as it is. -/
def allocates (flags : AllocationFlags) : Bool :=
  (flags.numaAware && decide (flags.numaNode < 8)) || decide (flags.alignmentSize > 0) ||
    (!flags.numaAware && !flags.intrinsicAllocator)

/-- There is no result when the build has no `libnuma` and the exception leaves `conf`. The
former elements are gone with their memory. -/
def allocateMemory (platform : Platform) (b : AllocatedRing T) (cfg : LatencyBufferConf) :
    Option (AllocatedRing T) :=
  if cfg.flags.numaAware = true ∧ cfg.flags.numaNode < 8 ∧ platform.withLibnuma = false then none
  else some { b with
    queue := { b.queue with size := u32 cfg.size, records := fun _ => none }
    flags := cfg.flags
    recordsNull :=
      if allocates cfg.flags then !platform.hasMemory cfg.size else b.recordsNull }

def forcePagefault (valueInit : T) (b : AllocatedRing T) : Option (AllocatedRing T) :=
  (prefillTask valueInit b.queue).map fun queue =>
    { b with queue := queue, prefillReady := true, prefillDone := true }

def conf (platform : Platform) (valueInit : T) (b : AllocatedRing T) (cfg : LatencyBufferConf) :
    Option (Bool × AllocatedRing T) :=
  if cfg.size < 2 then none
  else (b.allocateMemory platform cfg).bind fun b =>
    let b := { b with queue := { b.queue with readIndex := 0, writeIndex := 0 } }
    if b.recordsNull then some (true, b)
    else if cfg.preallocation then (b.forcePagefault valueInit).map fun b => (false, b)
    else some (false, b)

def scrap (platform : Platform) (b : AllocatedRing T) : AllocatedRing T where
  queue := { fresh T 2 with overflowCtr := b.queue.overflowCtr }
  flags := .default
  recordsNull := !platform.hasMemory 2
  prefillReady := false
  prefillDone := false

end AllocatedRing

/-- The data processor of a configuration. The tasks are those that the `conf` of the derived
processor registers, ahead of that of `TaskRawDataProcessorModel`. -/
structure DataProcessorConf (Task : Type) where
  preprocessTasks : List Task
  postprocessTasks : List Task
  queueSizes : ℕ
  threadNamesPrefix : String

/-- A `TaskRawDataProcessorModel`: its functions, the names of its threads, and the sizes of its
queues. -/
structure RawDataProcessor (Task : Type) where
  preprocessFunctions : List Task
  postProcessFunctions : List Task
  postProcessThreads : List String
  itemsToPostprocessQueues : List ℕ
  postprocessQueueSizes : ℕ
  runMarker : Bool
  deriving DecidableEq

namespace RawDataProcessor
variable {Task : Type}

def init (Task : Type) : RawDataProcessor Task := ⟨[], [], [], [], 0, false⟩

def addPreprocessTask (p : RawDataProcessor Task) (task : Task) : RawDataProcessor Task :=
  { p with preprocessFunctions := p.preprocessFunctions ++ [task] }

def addPostprocessTask (p : RawDataProcessor Task) (task : Task) : RawDataProcessor Task :=
  { p with
    postProcessThreads := p.postProcessThreads ++ [""]
    postProcessFunctions := p.postProcessFunctions ++ [task] }

def conf (p : RawDataProcessor Task) (cfg : DataProcessorConf Task) : RawDataProcessor Task :=
  { p with
    postprocessQueueSizes := cfg.queueSizes
    itemsToPostprocessQueues :=
      p.itemsToPostprocessQueues ++ List.replicate p.postProcessFunctions.length cfg.queueSizes
    postProcessThreads :=
      (List.range p.postProcessFunctions.length).map
        (fun i => cfg.threadNamesPrefix ++ toString i) ++
        p.postProcessThreads.drop p.postProcessFunctions.length }

def confDerived (p : RawDataProcessor Task) (cfg : DataProcessorConf Task) :
    RawDataProcessor Task :=
  conf (cfg.postprocessTasks.foldl addPostprocessTask
    (cfg.preprocessTasks.foldl addPreprocessTask p)) cfg

def scrap (p : RawDataProcessor Task) : RawDataProcessor Task :=
  { p with
    itemsToPostprocessQueues := []
    postProcessThreads := []
    postProcessFunctions := []
    preprocessFunctions := [] }

end RawDataProcessor

/-- A `DataHandlerModule` configuration. In callback mode the raw input connection is named
`cb...`. -/
structure DataHandlerConf (Task : Type) where
  latencyBuffer : LatencyBufferConf
  dataProcessor : DataProcessorConf Task
  popLimitPct : ℚ
  popSizePct : ℚ
  dataRecorder : Option DataRecorder
  callbackMode : Bool
  generateTimesync : Bool

def DataHandlerConf.requestHandler {Task : Type} (cfg : DataHandlerConf Task) :
    RequestHandlerConf :=
  ⟨cfg.popLimitPct, cfg.popSizePct, cfg.latencyBuffer.size, cfg.dataRecorder⟩

/-- The `RawDataHandlerBase` with its `DataHandlingModel`: the components, the errors reported,
what `conf` sets up, and the run markers. -/
structure Readout (T Task : Type) where
  latencyBuffer : AllocatedRing T
  rawProcessor : RawDataProcessor Task
  requestHandler : RequestHandler
  errors : List String
  callbackMode : Bool
  generateTimesync : Bool
  callbackRegistered : Bool
  threadNames : List String
  configured : Bool
  runMarker : Bool
  requestRunMarker : Bool

inductive Command (T : Type) where
  | doConf
  | doStart
  | payload (x : T)
  | doStop
  | doScrap

namespace Readout
variable {T Task : Type} (platform : Platform) (valueInit : T)

def init (cfg : DataHandlerConf Task) : Option (Readout T Task) :=
  ((AllocatedRing.init T).conf platform valueInit cfg.latencyBuffer).bind
    fun (badAlloc, latencyBuffer) =>
    (RequestHandler.init.conf platform.canOpen cfg.requestHandler).map
      fun (outOfRange, requestHandler) =>
        { latencyBuffer := latencyBuffer
          rawProcessor := (RawDataProcessor.init Task).confDerived cfg.dataProcessor
          requestHandler := requestHandler
          errors :=
            (if badAlloc then ["Latency Buffer can't be allocated with size!"] else []) ++
              if outOfRange then ["Auto-pop percentage out of range."] else []
          callbackMode := cfg.callbackMode
          generateTimesync := cfg.generateTimesync
          callbackRegistered := false
          threadNames := []
          configured := false
          runMarker := false
          requestRunMarker := false }

def doConf (s : Readout T Task) : Readout T Task :=
  { s with
    callbackRegistered := s.callbackRegistered || s.callbackMode
    threadNames := "consumer" :: if s.generateTimesync then ["timesync"] else []
    configured := true }

def doStart (s : Readout T Task) : Readout T Task :=
  { s with
    runMarker := true
    rawProcessor := { s.rawProcessor with runMarker := true }
    requestRunMarker := true }

def payload (s : Readout T Task) (x : T) : Readout T Task :=
  { s with
    latencyBuffer := { s.latencyBuffer with queue := (s.latencyBuffer.queue.write x).2 } }

def doStop (s : Readout T Task) : Option (Readout T Task) :=
  s.latencyBuffer.queue.flush.map fun queue =>
    { s with
      runMarker := false
      requestRunMarker := false
      latencyBuffer := { s.latencyBuffer with queue := queue }
      rawProcessor := { s.rawProcessor with runMarker := false } }

def doScrap (s : Readout T Task) : Readout T Task :=
  { s with
    requestHandler := s.requestHandler.scrap
    latencyBuffer := s.latencyBuffer.scrap platform
    rawProcessor := s.rawProcessor.scrap
    configured := false }

def step (s : Readout T Task) : Command T → Option (Readout T Task)
  | .doConf => some s.doConf
  | .doStart => some s.doStart
  | .payload x => some (s.payload x)
  | .doStop => s.doStop
  | .doScrap => some (s.doScrap platform)

end Readout
end DataHandling

import DataHandling.Buffer.BinarySearch
import DataHandling.Foundation.Execution
import DataHandling.Request.Configuration

/-! The recording of `DefaultRequestHandlerModel::record` beside the producer and the periodic
cleanup. Every load of an index, every read of a slot and every access to
`m_next_timestamp_to_record` is a step of its own; the search is one step, since no cleanup runs
beside it. A destroyed record keeps its memory until another one is constructed in its slot. -/

namespace DataHandling
open ReadoutType IterableQueueModel

/-- Where the recording thread stands, with the iterator of its inner loop and the number of
chunks processed. -/
inductive Recorder where
  | idle
  | started
  | outer
  | seeding
  | frontIndexLoaded (currentRead : ℕ)
  | frontLoaded (front : ℕ)
  | entering
  | searching
  | searched (chunkIter : ℕ)
  | testing (chunkIter processed : ℕ)
  | testingLoaded (chunkIter processed currentRead : ℕ)
  | comparing (chunkIter processed : ℕ)
  | writing (chunkIter processed : ℕ)
  | updating (chunkIter processed : ℕ)
  | advancing (chunkIter processed : ℕ)
  | advancingLoaded (chunkIter processed currentRead : ℕ)
  | stepped (chunkIter processed : ℕ)
  | steppedLoaded (chunkIter processed currentRead : ℕ)
  deriving DecidableEq

/-- Where `cleanup_check` stands; from `starting` to `notifying` it holds `m_cv_mutex`. -/
inductive Cleaner where
  | idle
  | waiting
  | starting
  | testing (left : ℕ)
  | popping (left : ℕ)
  | removingErrors
  | resetting
  | notifying
  deriving DecidableEq

/-- The ring with the record last constructed in each slot, the variables that the threads share,
the payloads written in the current recording and in earlier ones, the elements accepted and the
number of those removed. -/
structure RecordingSystem (T : Type) where
  queue : IterableQueueModel T
  memory : ℕ → Option T
  cleanupRequested : Bool
  requestsRunning : ℕ
  nextTimestampToRecord : UInt64
  recording : Bool
  recorder : Recorder
  cleaner : Cleaner
  written : List T
  recordings : List (List T)
  accepted : List T
  removed : ℕ

inductive RecordingAction (T : Type) where
  | write (payload : T)
  | cleanupCheck
  | cleanup
  | record
  | recorder
  | timeUp

def chunksPerPass : ℕ := 1000

def Cleaner.holdsMutex : Cleaner → Bool
  | .idle | .waiting => false
  | _ => true

def Recorder.slotRead : Recorder → Option ℕ
  | .frontLoaded front => some front
  | .comparing chunkIter _ | .writing chunkIter _ | .updating chunkIter _ => some chunkIter
  | _ => none

namespace RecordingSystem
variable {T : Type}

def init (queue : IterableQueueModel T) (xs : List T) : RecordingSystem T where
  queue := queue
  memory := queue.records
  cleanupRequested := false
  requestsRunning := 0
  nextTimestampToRecord := 18446744073709551615
  recording := false
  recorder := .idle
  cleaner := .idle
  written := []
  recordings := []
  accepted := xs
  removed := 0

def mutexFree (s : RecordingSystem T) : Bool := !s.cleaner.holdsMutex

def write (s : RecordingSystem T) (payload : T) : RecordingSystem T :=
  if (s.queue.write payload).1 then
    { s with
      queue := (s.queue.write payload).2
      memory := Function.update s.memory s.queue.writeIndex (some payload)
      accepted := s.accepted ++ [payload] }
  else { s with queue := (s.queue.write payload).2 }

variable [ReadoutType T] (handler : RequestHandler)

/-- A call of `cleanup_check`, up to its wait for the running requests. -/
def cleanupCheck (s : RecordingSystem T) : Option (RecordingSystem T) :=
  match s.cleaner with
  | .idle =>
    if s.queue.occupancy > handler.popLimitSize ∧ s.cleanupRequested = false then
      some { s with cleanupRequested := true, cleaner := .waiting }
    else some s
  | _ => none

/-- The next step of a cleanup. The front is tested against `m_next_timestamp_to_record` and
popped in two steps; a null front has no timestamp. -/
def stepCleaner (s : RecordingSystem T) : Option (RecordingSystem T) :=
  match s.cleaner with
  | .idle => none
  | .waiting => if s.requestsRunning = 0 then some { s with cleaner := .starting } else none
  | .starting =>
    some { s with
      cleaner := if s.queue.occupancy > handler.popLimitSize then
          .testing (handler.toPop s.queue.occupancy)
        else .resetting }
  | .testing 0 => some { s with cleaner := .removingErrors }
  | .testing (left + 1) =>
    (s.queue.front.bind s.queue.records).map fun front =>
      { s with
        cleaner := if getTimestamp front < s.nextTimestampToRecord then .popping left
          else .removingErrors }
  | .popping left =>
    s.queue.popFront.map fun queue =>
      { s with queue := queue, cleaner := .testing left, removed := s.removed + 1 }
  | .removingErrors =>
    (s.queue.front.bind s.queue.records).map fun _ => { s with cleaner := .resetting }
  | .resetting => some { s with cleanupRequested := false, cleaner := .notifying }
  | .notifying => some { s with cleaner := .idle }

def record (s : RecordingSystem T) : Option (RecordingSystem T) :=
  if s.recording ∨ handler.bufferedWriter = none then some s
  else match s.recorder with
    | .idle => some { s with recording := true, recorder := .started }
    | _ => none

def goodOf (q : IterableQueueModel T) (currentRead chunkIter : ℕ) : Bool :=
  IterableQueueModel.good { q with readIndex := currentRead } chunkIter

def goTo (s : RecordingSystem T) (recorder : Recorder) : RecordingSystem T :=
  { s with recorder := recorder }

def stepRecorder (s : RecordingSystem T) : Option (RecordingSystem T) :=
  match s.recorder with
  | .idle => none
  | .started => some { s with nextTimestampToRecord := 0, recorder := .outer }
  | .outer =>
    some (s.goTo <|
      if s.cleanupRequested = false ∨ s.nextTimestampToRecord = 0 then
        if s.nextTimestampToRecord = 0 then .seeding else .entering
      else .outer)
  | .seeding => some (s.goTo (.frontIndexLoaded s.queue.readIndex))
  | .frontIndexLoaded currentRead =>
    if currentRead = s.queue.writeIndex then
      some { s with nextTimestampToRecord := 0, recorder := .entering }
    else some (s.goTo (.frontLoaded currentRead))
  | .frontLoaded front =>
    (s.memory front).map fun x =>
      { s with nextTimestampToRecord := getTimestamp x, recorder := .entering }
  | .entering =>
    if s.mutexFree ∧ s.cleanupRequested = false then
      some { s with requestsRunning := s.requestsRunning + 1, recorder := .searching }
    else none
  | .searching =>
    (BinarySearchQueueModel.search s.queue (setTimestamp valueInit s.nextTimestampToRecord)).map
      fun chunkIter => s.goTo (.searched chunkIter)
  | .searched chunkIter =>
    if s.mutexFree then
      some { s with
        requestsRunning := s.requestsRunning - 1
        recorder := .testing chunkIter 0 }
    else none
  | .testing chunkIter processed =>
    some (s.goTo <|
      if chunkIter = endIndex then .outer
      else .testingLoaded chunkIter processed s.queue.readIndex)
  | .testingLoaded chunkIter processed currentRead =>
    some (s.goTo <|
      if goodOf s.queue currentRead chunkIter ∧ processed < chunksPerPass then
        .comparing chunkIter processed
      else .outer)
  | .comparing chunkIter processed =>
    (s.memory chunkIter).map fun x =>
      s.goTo <|
        if getTimestamp x ≥ s.nextTimestampToRecord then .writing chunkIter processed
        else .advancing chunkIter processed
  | .writing chunkIter processed =>
    (s.memory chunkIter).map fun x =>
      { s with
        written := s.written ++ [x]
        recorder := .updating chunkIter (processed + 1) }
  | .updating chunkIter processed =>
    (s.memory chunkIter).map fun x =>
      { s with
        nextTimestampToRecord := getTimestamp x + tickSpan x
        recorder := .advancing chunkIter processed }
  -- `++chunk_iter`: two calls of `good()`
  | .advancing chunkIter processed =>
    some (s.goTo (.advancingLoaded chunkIter processed s.queue.readIndex))
  | .advancingLoaded chunkIter processed currentRead =>
    some (s.goTo (.stepped
      (if goodOf s.queue currentRead chunkIter then s.queue.nextRecord chunkIter else chunkIter)
      processed))
  | .stepped chunkIter processed =>
    some (s.goTo (.steppedLoaded chunkIter processed s.queue.readIndex))
  | .steppedLoaded chunkIter processed currentRead =>
    some (s.goTo (.testing
      (if goodOf s.queue currentRead chunkIter then chunkIter else endIndex) processed))

def timeUp (s : RecordingSystem T) : Option (RecordingSystem T) :=
  match s.recorder with
  | .outer =>
    some { s with
      nextTimestampToRecord := 18446744073709551615
      recording := false
      recorder := .idle
      written := []
      recordings := s.recordings ++ [s.written] }
  | _ => none

def step (s : RecordingSystem T) : RecordingAction T → Option (RecordingSystem T)
  | .write payload => some (s.write payload)
  | .cleanupCheck => s.cleanupCheck handler
  | .cleanup => s.stepCleaner handler
  | .record => s.record handler
  | .recorder => s.stepRecorder
  | .timeUp => s.timeUp

end RecordingSystem
end DataHandling

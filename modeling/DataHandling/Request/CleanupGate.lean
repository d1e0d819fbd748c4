import DataHandling.Buffer.IterableQueue
import DataHandling.Request.FragmentPieces

/-! The threads that share the ring with its cleanup: the pool threads inside `issue_request`,
the recorder around its search, the callers of `cleanup_check`, and the producer. A mutex
section, a check of a wait predicate and a notification are one step each; a data request reads
the ring in several steps, and a cleanup pops one element at a time. -/

namespace DataHandling
open ReadoutType IterableQueueModel

/-- The work done between the two mutex sections that count a thread: the recorder's search, or
`data_request` with the values it has read so far. A piece is kept with the element that was
found in its slot. -/
inductive SectionWork (T : Type) where
  | recorderSearch (ts : UInt64)
  | recorderDone
  | atOccupancy (b e : UInt64)
  | atFront (b e : UInt64)
  | atBack (b e : UInt64) (front : Option ℕ)
  | atTimestamps (b e : UInt64) (front back : Option ℕ)
  | atLowerBound (b e lastTs newestTs : UInt64)
  | gathering (b e : UInt64) (code : ResultCode) (it : ℕ) (pieces : List (Piece × T))
  | atLogFront (code : ResultCode) (pieces : List (Piece × T))
  | atLogBack (code : ResultCode) (front : Option ℕ) (pieces : List (Piece × T))
  | atLogTimestamps (code : ResultCode) (front back : Option ℕ) (pieces : List (Piece × T))
  | building (sawData : Bool) (code : ResultCode) (pieces : List (Piece × T))
  | answered (code : ResultCode) (pieces : List (Piece × T))

/-- Where a thread stands that passes the gate: outside, asleep on `m_cv` or woken, past the
increment of `m_requests_running` with a notification owed, at work, or past the decrement with
a notification owed. -/
inductive GateThread (T : Type) where
  | outside
  | parked (work : SectionWork T)
  | woken (work : SectionWork T)
  | entered (work : SectionWork T)
  | working (work : SectionWork T)
  | left

/-- Where a caller of `cleanup_check` stands; from `starting` on it holds the mutex. -/
inductive CleanerThread where
  | outside
  | parked
  | woken
  | starting
  | popping (left : ℕ)
  | removingErrors
  | resetting
  | notifying
  deriving DecidableEq

/-- The ring and its searches, `m_cleanup_requested`, `m_requests_running`,
`m_next_timestamp_to_record` and the threads. -/
structure GateSystem (T : Type) where
  queue : IterableQueueModel T
  registry : FrameErrorRegistry
  cleanupRequested : Bool
  requestsRunning : ℤ
  nextTimestampToRecord : UInt64
  threads : List (GateThread T)
  cleaners : List CleanerThread

/-- The pop limit and the number of elements to pop at an occupancy, and `lower_bound` of the
ring. -/
structure GateConf (T : Type) where
  popLimitSize : ℕ
  toPop : ℕ → ℕ
  lowerBound : IterableQueueModel T → T → Bool → Option ℕ

inductive GateAction (T : Type) where
  | issueRequest (i : ℕ) (b e : UInt64)
  | recorderSearch (i : ℕ) (ts : UInt64)
  | recheck (i : ℕ)
  | notify (i : ℕ)
  | work (i : ℕ)
  | leave (i : ℕ)
  | wake (i : ℕ)
  | cleanupCheck (i : ℕ)
  | recheckCleaner (i : ℕ)
  | cleanup (i : ℕ)
  | wakeCleaner (i : ℕ)
  | write (payload : T)
  | setNextTimestampToRecord (ts : UInt64)

section Threads
variable {T : Type}

def GateThread.inSection : GateThread T → Bool
  | .entered _ | .working _ => true
  | _ => false

def GateThread.owesNotify : GateThread T → Bool
  | .entered _ | .left => true
  | _ => false

def GateThread.awake : GateThread T → GateThread T
  | .parked work => .woken work
  | t => t

def CleanerThread.holdsMutex : CleanerThread → Bool
  | .starting | .popping _ | .removingErrors | .resetting | .notifying => true
  | .outside | .parked | .woken => false

def CleanerThread.awake : CleanerThread → CleanerThread
  | .parked => .woken
  | c => c

def SectionWork.sawData : SectionWork T → Bool
  | .atFront _ _ | .atBack _ _ _ | .atTimestamps _ _ _ _ | .atLowerBound _ _ _ _
  | .gathering _ _ _ _ _ | .atLogFront _ _ | .atLogBack _ _ _ | .atLogTimestamps _ _ _ _ => true
  | .building sawData _ _ => sawData
  | _ => false

def SectionWork.pieces : SectionWork T → List (Piece × T)
  | .gathering _ _ _ _ pieces | .atLogFront _ pieces | .atLogBack _ _ pieces
  | .atLogTimestamps _ _ _ pieces | .building _ _ pieces => pieces
  | _ => []

def SectionWork.pointers : SectionWork T → List (Option ℕ)
  | .atBack _ _ front | .atLogBack _ front _ => [front]
  | .atTimestamps _ _ front back | .atLogTimestamps _ front back _ => [front, back]
  | _ => []

end Threads

namespace GateSystem
variable {T : Type} [ReadoutType T] (conf : GateConf T)

/-- The next step of a thread at work. There is no next step when a null pointer or raw memory
is read. -/
def workStep (q : IterableQueueModel T) (registry : FrameErrorRegistry) :
    SectionWork T → Option (SectionWork T)
  | .recorderSearch ts =>
    (conf.lowerBound q (setTimestamp valueInit ts) true).map fun _ => .recorderDone
  | .recorderDone => none
  | .atOccupancy b e =>
    if q.occupancy = 0 then some (.building false .kNotFound []) else some (.atFront b e)
  | .atFront b e => some (.atBack b e q.front)
  | .atBack b e front => some (.atTimestamps b e front q.back)
  | .atTimestamps b e front back =>
    (front.bind q.records).bind fun frontElement =>
      (back.bind q.records).map fun lastElement =>
        if b > getTimestamp lastElement then .atLogFront .kNotYet []
        else if e < getTimestamp frontElement then .atLogFront .kTooOld []
        else .atLowerBound b e (getTimestamp frontElement) (getTimestamp lastElement)
  | .atLowerBound b e lastTs newestTs =>
    (conf.lowerBound q (requestElement T b) (registry.hasError "MISSING_FRAMES")).map fun it =>
      if q.good it then .gathering b e (windowCode lastTs newestTs b e) it []
      else .atLogFront .kNotFound []
  | .gathering b e code it pieces =>
    if q.good it then
      (q.records it).map fun element =>
        if getTimestamp element < e then
          .gathering b e code (q.next it)
            (pieces ++ (elementPieces b e it element).map fun p => (p, element))
        else .atLogFront code pieces
    else some (.atLogFront code pieces)
  | .atLogFront code pieces => some (.atLogBack code q.front pieces)
  | .atLogBack code front pieces => some (.atLogTimestamps code front q.back pieces)
  | .atLogTimestamps code front back pieces =>
    (front.bind q.records).bind fun _ => (back.bind q.records).map fun _ =>
      .building true code pieces
  -- the bytes of every piece are copied into the fragment
  | .building _ code pieces =>
    if pieces.all fun p => (q.records p.1.iterator).isSome then some (.answered code pieces)
    else none
  | .answered _ _ => none

def isDone : SectionWork T → Bool
  | .recorderDone | .answered _ _ => true
  | _ => false

def mutexFree (s : GateSystem T) : Bool := s.cleaners.all fun c => !c.holdsMutex

def notifyAll (s : GateSystem T) : GateSystem T :=
  { s with
    threads := s.threads.map GateThread.awake
    cleaners := s.cleaners.map CleanerThread.awake }

/-- The first mutex section of a thread: it is counted if no cleanup is requested, and else
sleeps. -/
def enter (s : GateSystem T) (i : ℕ) (work : SectionWork T) : GateSystem T :=
  if s.cleanupRequested then { s with threads := s.threads.set i (.parked work) }
  else
    { s with
      threads := s.threads.set i (.entered work)
      requestsRunning := s.requestsRunning + 1 }

def awaitRequests (s : GateSystem T) (i : ℕ) : GateSystem T :=
  { s with
    cleaners := s.cleaners.set i (if s.requestsRunning = 0 then .starting else .parked) }

def cleanupStep (s : GateSystem T) (i : ℕ) : CleanerThread → Option (GateSystem T)
  | .starting =>
    some { s with
      cleaners := s.cleaners.set i
        (if s.queue.occupancy > conf.popLimitSize then .popping (conf.toPop s.queue.occupancy)
         else .resetting) }
  | .popping 0 => some { s with cleaners := s.cleaners.set i .removingErrors }
  | .popping (left + 1) =>
    (s.queue.front.bind s.queue.records).bind fun front =>
      if getTimestamp front < s.nextTimestampToRecord then
        s.queue.popFront.map fun queue =>
          { s with queue := queue, cleaners := s.cleaners.set i (.popping left) }
      else some { s with cleaners := s.cleaners.set i .removingErrors }
  | .removingErrors =>
    (s.queue.front.bind s.queue.records).map fun front =>
      { s with
        registry := s.registry.removeErrorsUntil (getTimestamp front)
        cleaners := s.cleaners.set i .resetting }
  | .resetting =>
    some { s with cleanupRequested := false, cleaners := s.cleaners.set i .notifying }
  | .notifying => some { s with cleaners := s.cleaners.set i .outside }.notifyAll
  | .outside | .parked | .woken => none

def step (s : GateSystem T) : GateAction T → Option (GateSystem T)
  | .issueRequest i b e =>
    match s.threads[i]? with
    | some .outside => if s.mutexFree then some (s.enter i (.atOccupancy b e)) else none
    | _ => none
  | .recorderSearch i ts =>
    match s.threads[i]? with
    | some .outside => if s.mutexFree then some (s.enter i (.recorderSearch ts)) else none
    | _ => none
  | .recheck i =>
    match s.threads[i]? with
    | some (.woken work) => if s.mutexFree then some (s.enter i work) else none
    | _ => none
  | .notify i =>
    match s.threads[i]? with
    | some (.entered work) => some { s with threads := s.threads.set i (.working work) }.notifyAll
    | some .left => some { s with threads := s.threads.set i .outside }.notifyAll
    | _ => none
  | .work i =>
    match s.threads[i]? with
    | some (.working work) =>
      (workStep conf s.queue s.registry work).map fun work =>
        { s with threads := s.threads.set i (.working work) }
    | _ => none
  | .leave i =>
    match s.threads[i]? with
    | some (.working work) =>
      if isDone work && s.mutexFree then
        some { s with
          threads := s.threads.set i .left
          requestsRunning := s.requestsRunning - 1 }
      else none
    | _ => none
  -- a wait may also end without a notification
  | .wake i =>
    match s.threads[i]? with
    | some (.parked work) => some { s with threads := s.threads.set i (.woken work) }
    | _ => none
  | .cleanupCheck i =>
    match s.cleaners[i]? with
    | some .outside =>
      if s.mutexFree then
        if s.queue.occupancy > conf.popLimitSize ∧ s.cleanupRequested = false then
          some ({ s with cleanupRequested := true }.awaitRequests i)
        else some s
      else none
    | _ => none
  | .recheckCleaner i =>
    match s.cleaners[i]? with
    | some .woken => if s.mutexFree then some (s.awaitRequests i) else none
    | _ => none
  | .cleanup i => s.cleaners[i]?.bind (cleanupStep conf s i)
  | .wakeCleaner i =>
    match s.cleaners[i]? with
    | some .parked => some { s with cleaners := s.cleaners.set i .woken }
    | _ => none
  | .write payload => some { s with queue := (s.queue.write payload).2 }
  | .setNextTimestampToRecord ts => some { s with nextTimestampToRecord := ts }

def init (queue : IterableQueueModel T) (registry : FrameErrorRegistry) (threads cleaners : ℕ) :
    GateSystem T where
  queue := queue
  registry := registry
  cleanupRequested := false
  requestsRunning := 0
  nextTimestampToRecord := 18446744073709551615
  threads := List.replicate threads .outside
  cleaners := List.replicate cleaners .outside

end GateSystem
end DataHandling

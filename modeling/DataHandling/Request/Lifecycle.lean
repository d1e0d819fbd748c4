import DataHandling.Request.DataRequest
import DataHandling.Foundation.Execution

/-! The way of a data request through the handler: posted to the thread pool, evaluated,
put off to the waiting list and retried, or answered; with the thread that checks the waiting
list, and the start and stop of runs. -/

namespace DataHandling
open LatencyBuffer

/-- A request, with a number of its own and the run it was issued in. -/
structure TrackedRequest where
  id : ℕ
  run : ℕ
  request : DataRequest
  deriving DecidableEq

/-- A call of `issue_request` posted to the thread pool. -/
structure PoolTask where
  tracked : TrackedRequest
  isRetry : Bool
  deriving DecidableEq

/-- A task whose `data_request` has returned. -/
structure EvaluatedTask where
  task : PoolTask
  code : ResultCode
  deriving DecidableEq

/-- An entry of `m_waiting_requests`. -/
structure RequestElement where
  tracked : TrackedRequest
  startTime : ℤ
  deriving DecidableEq

/-- Where `start` and `stop` stand. -/
inductive HandlerPhase where
  | stopped
  | running
  | joiningWaitingThread
  | joiningPool
  deriving DecidableEq

/-- Where the thread in `check_waiting_requests` stands: before it reads the run marker, before
it reads the size of the waiting list, before it locks the list, or past the loop. -/
inductive WaitingThread where
  | atRunMarker
  | atSize
  | atLock
  | exited
  deriving DecidableEq

/-- The handler's state, with logs of what happened to each request; the number beside an
evaluation or a send is the run it happened in. -/
structure RequestSystem (LB : Type) where
  buffer : LB
  phase : HandlerPhase
  runMarker : Bool
  waitingThread : WaitingThread
  poolQueue : List PoolTask
  serving : List PoolTask
  concluding : List EvaluatedTask
  waitingRequests : List RequestElement
  stats : RequestStats
  currentRun : ℕ
  nextId : ℕ
  evaluations : List (EvaluatedTask × ℕ)
  delayed : List EvaluatedTask
  retried : List TrackedRequest
  sent : List (PoolTask × ℕ)

/-- What the handler is configured with, and the result codes that `data_request` may return
against a buffer while other threads write to it. -/
structure HandlerConf (LB : Type) where
  requestTimeoutMs : ℤ
  mayReturn : LB → DataRequest → ResultCode → Bool

def HandlerConf.atomic {T LB : Type} [ReadoutType T] [LatencyBuffer LB T]
    (registry : FrameErrorRegistry) (source : FragmentSource) (fuel : ℕ) (requestTimeoutMs : ℤ) :
    HandlerConf LB where
  requestTimeoutMs := requestTimeoutMs
  mayReturn := fun lb request code =>
    (dataRequest lb registry source fuel .zero request).map (fun r => r.1.resultCode) == some code

inductive RequestAction (T : Type) where
  | start
  | issueRequest (request : DataRequest)
  | take (i : ℕ)
  | evaluate (i : ℕ) (code : ResultCode)
  | conclude (i : ℕ) (now : ℤ)
  | readRunMarker
  | readSize
  | checkWaitingRequests (clock : ℕ → ℤ)
  | stop
  | joinWaitingThread
  | joinPool
  | write (payload : T)
  | cleanup (count : ℕ)

namespace RequestSystem
variable {T LB : Type} [ReadoutType T] [LatencyBuffer LB T]

def init (buffer : LB) : RequestSystem LB where
  buffer := buffer
  phase := .stopped
  runMarker := false
  waitingThread := .exited
  poolQueue := []
  serving := []
  concluding := []
  waitingRequests := []
  stats := .zero
  currentRun := 0
  nextId := 0
  evaluations := []
  delayed := []
  retried := []
  sent := []

variable (conf : HandlerConf LB)

/-- Whether the lambda of `issue_request` puts the request off instead of sending its
fragment. -/
def requeues (e : EvaluatedTask) : Bool :=
  e.code.isDelayed && decide (conf.requestTimeoutMs > 0) && !e.task.isRetry

def newestTs (lb : LB) : UInt64 :=
  match back lb with
  | some element => ReadoutType.getTimestamp element
  | none => 0

def timedOut (now : ℤ) (r : RequestElement) : Bool :=
  decide ((now - r.startTime).tdiv 1000000 ≥ conf.requestTimeoutMs)

def retries (newest : UInt64) (now : ℤ) (r : RequestElement) : Bool :=
  decide (r.tracked.request.windowEnd < newest) || timedOut conf now r

def countTimeout (newest : UInt64) (r : RequestElement) (stats : RequestStats) : RequestStats :=
  if r.tracked.request.windowEnd < newest then stats
  else
    { stats with
      numRequestsBad := stats.numRequestsBad + 1
      numRequestsTimedOut := stats.numRequestsTimedOut + 1 }

/-- One pass over the waiting list under its lock: the entries retried and those kept, and the
statistics with the timeouts counted. The clock is read anew at each entry. -/
def checkEntries (newest : UInt64) (clock : ℕ → ℤ) :
    ℕ → List RequestElement → RequestStats →
      List TrackedRequest × List RequestElement × RequestStats
  | _, [], stats => ([], [], stats)
  | i, r :: rs, stats =>
    if retries conf newest (clock i) r then
      (r.tracked :: (checkEntries newest clock (i + 1) rs (countTimeout newest r stats)).1,
        (checkEntries newest clock (i + 1) rs (countTimeout newest r stats)).2)
    else
      ((checkEntries newest clock (i + 1) rs stats).1,
        r :: (checkEntries newest clock (i + 1) rs stats).2.1,
        (checkEntries newest clock (i + 1) rs stats).2.2)

def checkWaitingRequests (clock : ℕ → ℤ) (s : RequestSystem LB) : RequestSystem LB :=
  let pass := checkEntries conf (newestTs s.buffer) clock 0 s.waitingRequests s.stats
  { s with
    waitingThread := .atRunMarker
    poolQueue := s.poolQueue ++ pass.1.map fun tracked => ⟨tracked, true⟩
    waitingRequests := pass.2.1
    stats := pass.2.2
    retried := s.retried ++ pass.1 }

/-- The end of the lambda of `issue_request`: the request is put off, or its fragment sent. -/
def conclude (e : EvaluatedTask) (now : ℤ) (s : RequestSystem LB) : RequestSystem LB :=
  if requeues conf e then
    { s with
      stats := { s.stats with handledRequests := s.stats.handledRequests + 1 }
      waitingRequests := s.waitingRequests ++ [⟨e.task.tracked, now⟩]
      delayed := s.delayed ++ [e] }
  else
    { s with
      stats := { s.stats with handledRequests := s.stats.handledRequests + 1 }
      sent := s.sent ++ [(e.task, s.currentRun)] }

/-- One atomic step of one of the threads. Requests are issued while a run is on: the callback
that issues them is removed before `stop` is called. -/
def step (s : RequestSystem LB) : RequestAction T → Option (RequestSystem LB)
  | .start =>
    if s.phase = .stopped then
      some { s with
        phase := .running
        runMarker := true
        waitingThread := .atRunMarker
        poolQueue := []
        stats := .zero
        currentRun := s.currentRun + 1 }
    else none
  | .issueRequest request =>
    if s.phase = .running then
      some { s with
        poolQueue := s.poolQueue ++ [⟨⟨s.nextId, s.currentRun, request⟩, false⟩]
        nextId := s.nextId + 1 }
    else none
  | .take i =>
    s.poolQueue[i]?.map fun task =>
      { s with poolQueue := s.poolQueue.eraseIdx i, serving := s.serving ++ [task] }
  | .evaluate i code =>
    s.serving[i]?.bind fun task =>
      if conf.mayReturn s.buffer task.tracked.request code then
        some { s with
          serving := s.serving.eraseIdx i
          concluding := s.concluding ++ [⟨task, code⟩]
          stats := s.stats.count code
          evaluations := s.evaluations ++ [(⟨task, code⟩, s.currentRun)] }
      else none
  | .conclude i now =>
    s.concluding[i]?.map fun e =>
      conclude conf e now { s with concluding := s.concluding.eraseIdx i }
  | .readRunMarker =>
    if s.waitingThread = .atRunMarker then
      some { s with waitingThread := if s.runMarker then .atSize else .exited }
    else none
  | .readSize =>
    if s.waitingThread = .atSize then
      some { s with waitingThread := if s.waitingRequests = [] then .atRunMarker else .atLock }
    else none
  | .checkWaitingRequests clock =>
    if s.waitingThread = .atLock then some (s.checkWaitingRequests conf clock) else none
  | .stop =>
    if s.phase = .running then
      some { s with phase := .joiningWaitingThread, runMarker := false }
    else none
  | .joinWaitingThread =>
    if s.phase = .joiningWaitingThread ∧ s.waitingThread = .exited then
      some { s with phase := .joiningPool }
    else none
  | .joinPool =>
    if s.phase = .joiningPool ∧ s.poolQueue = [] ∧ s.serving = [] ∧ s.concluding = [] then
      some { s with phase := .stopped }
    else none
  | .write payload => some { s with buffer := (write s.buffer payload).2 }
  | .cleanup count => (pop count s.buffer).map fun buffer => { s with buffer := buffer }

end RequestSystem
end DataHandling

import DataHandling.Buffer.LatencyBuffer
import DataHandling.Foundation.Execution
import DataHandling.Request.FrameErrorRegistry

/-! The consumer of `DataHandlingModel` over its latency buffer, with the request handler's
`cleanup` beside it: `process_item` and `consume_payload` in the steps preprocessing, write and
post-processing, the deferred post-processing of `run_consume`, and the pops of a cleanup one
at a time. Requests only read this state. -/

namespace DataHandling
open ReadoutType

/-- Where the consumer stands in `process_item`, or in `consume_payload` for a callback. -/
inductive ConsumerPhase (T : Type) where
  | idle
  | preprocessed (payload : T) (callback : Bool)
  | written
  deriving DecidableEq

def ConsumerPhase.payload {T : Type} : ConsumerPhase T → Option T
  | .preprocessed payload _ => some payload
  | _ => none

/-- Where `cleanup` stands. -/
inductive CleanupPhase where
  | idle
  | popping (left : ℕ)
  | removingErrors
  deriving DecidableEq

/-- A warning `DataPacketArrivedTooLate`. -/
structure LateArrival where
  timestamp : UInt64
  cutoffTimestamp : UInt64
  difference : Int64
  deriving DecidableEq

/-- The configuration and what the model uses of the processor: its preprocessing tasks, which
may keep state, report errors and change the payload. -/
structure ConsumerConf (T P : Type) where
  processingDelayTicks : UInt64
  supportsCutoffTimestamp : Bool
  preprocessItem : P → FrameErrorRegistry → T → P × FrameErrorRegistry × T
  popLimitSize : ℕ
  toPop : ℕ → ℕ

/-- The buffer, the error registry, the processor, the variables of `run_consume`, the payloads
whose writes returned true, and the pointers handed to `postprocess_item`, each as the element
behind it, none for a null pointer. -/
structure ConsumerSystem (LB T P : Type) where
  latencyBuffer : LB
  errorRegistry : FrameErrorRegistry
  processor : P
  phase : ConsumerPhase T
  cleanupPhase : CleanupPhase
  endWinTs : UInt64
  firstCycle : Bool
  processedElement : T
  accepted : List T
  postprocessed : List (Option T)
  lateArrivals : List LateArrival
  numPayloads : ℕ
  sumPayloads : ℕ
  statsPacketCount : ℕ
  numPayloadsOverwritten : ℕ

inductive ConsumerAction (T : Type) where
  | preprocess (payload : T) (cutoffTimestamp : UInt64) (callback : Bool)
  | write
  | postprocess
  | deferredPass (fuel : ℕ)
  | startCleanup
  | popOne (nextTimestampToRecord : UInt64)
  | removeErrors

namespace ConsumerSystem
variable {LB T P : Type} [ReadoutType T] [LatencyBuffer LB T] (conf : ConsumerConf T P)

def init (lb : LB) (processor : P) : ConsumerSystem LB T P where
  latencyBuffer := lb
  errorRegistry := .empty
  processor := processor
  phase := .idle
  cleanupPhase := .idle
  endWinTs := 0
  firstCycle := true
  processedElement := valueInit
  accepted := []
  postprocessed := []
  lateArrivals := []
  numPayloads := 0
  sumPayloads := 0
  statsPacketCount := 0
  numPayloadsOverwritten := 0

def checkCutoff (payload : T) (cutoffTimestamp : UInt64) : List LateArrival :=
  if conf.supportsCutoffTimestamp ∧ (getTimestamp payload - cutoffTimestamp).toInt64 ≤ 0 then
    [⟨getTimestamp payload, cutoffTimestamp, (getTimestamp payload - cutoffTimestamp).toInt64⟩]
  else []

def preprocess (s : ConsumerSystem LB T P) (payload : T) (cutoffTimestamp : UInt64)
    (callback : Bool) : ConsumerSystem LB T P :=
  match conf.preprocessItem s.processor s.errorRegistry payload with
  | (processor, errorRegistry, item) =>
    { s with
      processor := processor
      errorRegistry := errorRegistry
      lateArrivals := s.lateArrivals ++ checkCutoff conf item cutoffTimestamp
      phase := .preprocessed item callback }

def write (s : ConsumerSystem LB T P) (payload : T) (callback : Bool) : ConsumerSystem LB T P :=
  { s with
    latencyBuffer := (LatencyBuffer.write s.latencyBuffer payload).2
    accepted :=
      if (LatencyBuffer.write s.latencyBuffer payload).1 then s.accepted ++ [payload]
      else s.accepted
    numPayloadsOverwritten :=
      if (LatencyBuffer.write s.latencyBuffer payload).1 then s.numPayloadsOverwritten
      else s.numPayloadsOverwritten + 1
    phase := if callback ∨ conf.processingDelayTicks = 0 then .written else .idle }

def handOver (s : ConsumerSystem LB T P) (pointers : List (Option T)) : ConsumerSystem LB T P :=
  { s with
    postprocessed := s.postprocessed ++ pointers
    numPayloads := s.numPayloads + pointers.length
    sumPayloads := s.sumPayloads + pointers.length
    statsPacketCount := s.statsPacketCount + pointers.length }

def postprocess (s : ConsumerSystem LB T P) : ConsumerSystem LB T P :=
  { s.handOver [LatencyBuffer.back s.latencyBuffer] with phase := .idle }

/-- The pointers of the loop from an iterator to `end_iter`, with a bound on its iterations. -/
def passPointers (lb : LB) (endIter : ℕ) : ℕ → ℕ → Option (List (Option T))
  | fuel, it =>
    if it = endIter then some []
    else match fuel with
      | 0 => none
      | fuel + 1 =>
        (passPointers lb endIter fuel (LatencyBuffer.next lb it)).map
          (LatencyBuffer.deref lb it :: ·)

/-- `processed_element`, after the first cycle has set it to the front of the buffer. -/
def seededElement (s : ConsumerSystem LB T P) : Option T :=
  if s.firstCycle then
    (LatencyBuffer.front s.latencyBuffer).map fun head =>
      setTimestamp s.processedElement (getTimestamp head)
  else some s.processedElement

def passIsDue (tail processed : T) : Bool :=
  decide (getTimestamp tail - getTimestamp processed > conf.processingDelayTicks)

def endElement (tail processed : T) : T :=
  setTimestamp processed (getTimestamp tail - conf.processingDelayTicks)

/-- The deferred post-processing of `run_consume`. There is no result when a null pointer is
read, or when the loop takes more iterations than the bound. -/
def deferredPass (fuel : ℕ) (s : ConsumerSystem LB T P) : Option (ConsumerSystem LB T P) :=
  if conf.processingDelayTicks = 0 ∨ LatencyBuffer.occupancy s.latencyBuffer = 0 then some s
  else
    (LatencyBuffer.back s.latencyBuffer).bind fun tail =>
      (seededElement s).bind fun processed =>
        if passIsDue conf tail processed then
          (LatencyBuffer.lowerBound s.latencyBuffer processed false).bind fun startIter =>
            (LatencyBuffer.lowerBound s.latencyBuffer (endElement conf tail processed) false).bind
              fun endIter =>
                (passPointers s.latencyBuffer endIter fuel startIter).map fun pointers =>
                  { s.handOver pointers with
                    endWinTs := getTimestamp tail - conf.processingDelayTicks
                    firstCycle := false
                    processedElement := endElement conf tail processed }
        else some { s with firstCycle := false, processedElement := processed }

def startCleanup (s : ConsumerSystem LB T P) : ConsumerSystem LB T P :=
  if LatencyBuffer.occupancy s.latencyBuffer > conf.popLimitSize then
    { s with cleanupPhase := .popping (conf.toPop (LatencyBuffer.occupancy s.latencyBuffer)) }
  else s

def popOne (s : ConsumerSystem LB T P) (nextTimestampToRecord : UInt64) :
    ℕ → Option (ConsumerSystem LB T P)
  | 0 => some { s with cleanupPhase := .removingErrors }
  | left + 1 =>
    (LatencyBuffer.front s.latencyBuffer).bind fun front =>
      if getTimestamp front < nextTimestampToRecord then
        (LatencyBuffer.pop 1 s.latencyBuffer).map fun lb =>
          { s with latencyBuffer := lb, cleanupPhase := .popping left }
      else some { s with cleanupPhase := .removingErrors }

def removeErrors (s : ConsumerSystem LB T P) : Option (ConsumerSystem LB T P) :=
  (LatencyBuffer.front s.latencyBuffer).map fun front =>
    { s with
      errorRegistry := s.errorRegistry.removeErrorsUntil (getTimestamp front)
      cleanupPhase := .idle }

def step (s : ConsumerSystem LB T P) : ConsumerAction T → Option (ConsumerSystem LB T P)
  | .preprocess payload cutoffTimestamp callback =>
    match s.phase with
    | .idle => some (s.preprocess conf payload cutoffTimestamp callback)
    | _ => none
  | .write =>
    match s.phase with
    | .preprocessed payload callback => some (s.write conf payload callback)
    | _ => none
  | .postprocess =>
    match s.phase with
    | .written => some s.postprocess
    | _ => none
  | .deferredPass fuel =>
    match s.phase with
    | .idle => s.deferredPass conf fuel
    | _ => none
  | .startCleanup =>
    match s.cleanupPhase with
    | .idle => some (s.startCleanup conf)
    | _ => none
  | .popOne nextTimestampToRecord =>
    match s.cleanupPhase with
    | .popping left => s.popOne nextTimestampToRecord left
    | _ => none
  | .removeErrors =>
    match s.cleanupPhase with
    | .removingErrors => s.removeErrors
    | _ => none

section Cases
variable {conf : ConsumerConf T P} {s s' : ConsumerSystem LB T P} {fuel : ℕ}

inductive PassCases (conf : ConsumerConf T P) (fuel : ℕ) (s : ConsumerSystem LB T P) :
    ConsumerSystem LB T P → Prop where
  | skipped (hskip : conf.processingDelayTicks = 0 ∨ LatencyBuffer.occupancy s.latencyBuffer = 0) :
      PassCases conf fuel s s
  | seeded {tail processed : T} (hrun : ¬ (conf.processingDelayTicks = 0 ∨
      LatencyBuffer.occupancy s.latencyBuffer = 0))
    (hback : LatencyBuffer.back s.latencyBuffer = some tail)
      (hseed : s.seededElement = some processed) (hdue : passIsDue conf tail processed = false) :
      PassCases conf fuel s { s with firstCycle := false, processedElement := processed }
  | executed (pointers : List (Option T)) {tail processed : T} {startIter endIter : ℕ}
      (hrun : ¬ (conf.processingDelayTicks = 0 ∨ LatencyBuffer.occupancy s.latencyBuffer = 0))
      (hback : LatencyBuffer.back s.latencyBuffer = some tail)
      (hseed : s.seededElement = some processed) (hdue : passIsDue conf tail processed = true)
      (hstart : LatencyBuffer.lowerBound s.latencyBuffer processed false = some startIter)
      (hend : LatencyBuffer.lowerBound s.latencyBuffer (endElement conf tail processed) false =
        some endIter)
      (hpointers : passPointers s.latencyBuffer endIter fuel startIter = some pointers) :
      PassCases conf fuel s
        { s.handOver pointers with
          endWinTs := getTimestamp tail - conf.processingDelayTicks
          firstCycle := false
          processedElement := endElement conf tail processed }

theorem pass_cases (hpass : s.deferredPass conf fuel = some s') : PassCases conf fuel s s' := by
  rw [deferredPass] at hpass
  split_ifs at hpass with hskip
  · cases hpass
    exact .skipped hskip
  · obtain ⟨tail, hback, hpass⟩ := Option.bind_eq_some_iff.mp hpass
    obtain ⟨processed, hseed, hpass⟩ := Option.bind_eq_some_iff.mp hpass
    split_ifs at hpass with hdue
    · obtain ⟨startIter, hstart, hpass⟩ := Option.bind_eq_some_iff.mp hpass
      obtain ⟨endIter, hend, hpass⟩ := Option.bind_eq_some_iff.mp hpass
      obtain ⟨pointers, hpointers, rfl⟩ := Option.map_eq_some_iff.mp hpass
      exact .executed pointers hskip hback hseed hdue hstart hend hpointers
    · cases hpass
      exact .seeded hskip hback hseed (Bool.eq_false_iff.mpr hdue)

inductive StepCases (conf : ConsumerConf T P) (s : ConsumerSystem LB T P) :
    ConsumerAction T → ConsumerSystem LB T P → Prop where
  | preprocess (payload : T) (cutoffTimestamp : UInt64) (callback : Bool)
      (hphase : s.phase = .idle) :
      StepCases conf s (.preprocess payload cutoffTimestamp callback)
        (s.preprocess conf payload cutoffTimestamp callback)
  | write {payload : T} {callback : Bool} (hphase : s.phase = .preprocessed payload callback) :
      StepCases conf s .write (s.write conf payload callback)
  | postprocess (hphase : s.phase = .written) : StepCases conf s .postprocess s.postprocess
  | pass {s' : ConsumerSystem LB T P} (fuel : ℕ) (hphase : s.phase = .idle)
      (hpass : PassCases conf fuel s s') : StepCases conf s (.deferredPass fuel) s'
  | cleanup {a : ConsumerAction T} (ha : a = .startCleanup ∨ ∃ ts, a = .popOne ts)
      (cleanupPhase : CleanupPhase) : StepCases conf s a { s with cleanupPhase := cleanupPhase }
  | popOne (nextTimestampToRecord : UInt64) {lb : LB}
      (hpop : LatencyBuffer.pop 1 s.latencyBuffer = some lb) (cleanupPhase : CleanupPhase) :
      StepCases conf s (.popOne nextTimestampToRecord)
        { s with latencyBuffer := lb, cleanupPhase := cleanupPhase }
  | removeErrors {front : T} (hfront : LatencyBuffer.front s.latencyBuffer = some front) :
      StepCases conf s .removeErrors
        { s with
          errorRegistry := s.errorRegistry.removeErrorsUntil (getTimestamp front)
          cleanupPhase := .idle }

theorem step_cases {a : ConsumerAction T} (hstep : step conf s a = some s') :
    StepCases conf s a s' := by
  cases a with
  | preprocess payload cutoffTimestamp callback =>
    simp only [step] at hstep
    split at hstep <;> cases hstep
    exact .preprocess _ _ _ ‹_›
  | write =>
    simp only [step] at hstep
    split at hstep <;> cases hstep
    exact .write ‹_›
  | postprocess =>
    simp only [step] at hstep
    split at hstep <;> cases hstep
    exact .postprocess ‹_›
  | deferredPass fuel =>
    simp only [step] at hstep
    split at hstep
    · exact .pass fuel ‹_› (pass_cases hstep)
    · cases hstep
  | startCleanup =>
    simp only [step] at hstep
    split at hstep <;> cases hstep
    rw [startCleanup]
    split_ifs
    · exact .cleanup (.inl rfl) _
    · exact .cleanup (.inl rfl) s.cleanupPhase
  | popOne nextTimestampToRecord =>
    simp only [step] at hstep
    split at hstep
    · rename_i left _
      cases left with
      | zero =>
        cases hstep
        exact .cleanup (.inr ⟨_, rfl⟩) _
      | succ left =>
        obtain ⟨front, _, hstep⟩ := Option.bind_eq_some_iff.mp hstep
        split_ifs at hstep
        · obtain ⟨lb, hpop, rfl⟩ := Option.map_eq_some_iff.mp hstep
          exact .popOne _ hpop _
        · cases hstep
          exact .cleanup (.inr ⟨_, rfl⟩) _
    · cases hstep
  | removeErrors =>
    simp only [step] at hstep
    split at hstep
    · obtain ⟨front, hfront, rfl⟩ := Option.map_eq_some_iff.mp hstep
      exact .removeErrors hfront
    · cases hstep

structure Counted (s : ConsumerSystem LB T P) : Prop where
  numPayloads : s.numPayloads = s.postprocessed.length
  sumPayloads : s.sumPayloads = s.postprocessed.length
  statsPacketCount : s.statsPacketCount = s.postprocessed.length

omit [ReadoutType T] [LatencyBuffer LB T] in
theorem Counted.handOver (h : Counted s) (pointers : List (Option T)) :
    Counted (s.handOver pointers) := by
  obtain ⟨hnum, hsum, hstats⟩ := h
  constructor <;> simp only [ConsumerSystem.handOver, List.length_append, hnum, hsum, hstats]

theorem run_counted (lb : LB) (processor : P) (as : List (ConsumerAction T))
    (hrun : Execution.run (step conf) (init lb processor) as = some s) : Counted s := by
  refine Execution.run_invariant (fun s a s' h hstep => ?_)
    (⟨rfl, rfl, rfl⟩ : Counted (init lb processor)) hrun
  obtain ⟨hnum, hsum, hstats⟩ := h
  cases step_cases hstep with
  | postprocess =>
    have hpost := Counted.handOver ⟨hnum, hsum, hstats⟩ [LatencyBuffer.back s.latencyBuffer]
    exact ⟨hpost.numPayloads, hpost.sumPayloads, hpost.statsPacketCount⟩
  | pass fuel _ hpass =>
    cases hpass with
    | executed pointers =>
      have hpost := Counted.handOver ⟨hnum, hsum, hstats⟩ pointers
      exact ⟨hpost.numPayloads, hpost.sumPayloads, hpost.statsPacketCount⟩
    | skipped | seeded => exact ⟨hnum, hsum, hstats⟩
  | preprocess | write | cleanup | popOne | removeErrors => exact ⟨hnum, hsum, hstats⟩

end Cases

end ConsumerSystem
end DataHandling

import DataHandling.Foundation.Destutter
import DataHandling.Foundation.Execution
import Mathlib.Data.List.TakeWhile

/-! The TimeSync messages of a `DataHandlingModel` with a TimeSync output: `run_timesync` reads the
timestamp that the consumer processed last, while `start` and `stop` of the runs come and go. -/

namespace DataHandling

structure TimeSync where
  daqTime : UInt64
  runNumber : UInt32
  sequenceNumber : UInt64
  sourcePid : UInt32
  deriving DecidableEq

/-- What `do_start` and `do_stop` do next. -/
inductive RunPhase where
  | stopped
  | settingConsumer
  | settingTimesync
  | running
  | joiningTimesync
  | joiningConsumer
  | flushing
  deriving DecidableEq

def RunPhase.sets : RunPhase → Bool
  | .settingConsumer | .settingTimesync => true
  | _ => false

def RunPhase.consumes : RunPhase → Bool
  | .settingTimesync | .running | .joiningTimesync | .joiningConsumer => true
  | _ => false

def RunPhase.syncs : RunPhase → Bool
  | .running | .joiningTimesync => true
  | _ => false

/-- Where the timesync thread stands: out of its loop, before it reads the run marker, before it
reads the last processed timestamp, with that timestamp, or with some rounds of its sleep left. -/
inductive TimesyncThread where
  | ready
  | atRunMarker
  | atDaqTime
  | atTest (daqTime : UInt64)
  | sleeping (rounds : ℕ)
  deriving DecidableEq

/-- The members that the TimeSync messages depend on and the variables of `run_timesync`, with logs
of the run: the timestamps processed, those tested, the messages, and those that were delivered. -/
structure TimesyncSystem where
  phase : RunPhase
  runMarker : Bool
  runNumber : UInt32
  lastProcessedDaqTs : UInt64
  consumerLooping : Bool
  timesync : TimesyncThread
  msgSeqno : UInt64
  prevTimestamp : UInt64
  zeroTimestampCount : UInt64
  duplicateTimestampCount : UInt64
  totalTimestampCount : UInt64
  processed : List UInt64
  readings : List UInt64
  messages : List TimeSync
  delivered : List TimeSync

/-- The steps of the commands, of the thread or callback that processes payloads, and of the
timesync thread; the flag of a test tells whether a message is delivered. -/
inductive TimesyncAction where
  | doStart (runNumber : UInt32)
  | setConsumerWork
  | setTimesyncWork
  | doStop
  | joinTimesync
  | joinConsumer
  | resetLastDaqTime
  | preprocess (timestamp : UInt64)
  | leaveConsumer
  | readRunMarker
  | readDaqTime
  | test (delivers : Bool)
  | sleep

structure TimesyncConf where
  callbackMode : Bool
  pidOfCurrentProcess : UInt32

namespace TimesyncSystem
variable (conf : TimesyncConf)

def init : TimesyncSystem where
  phase := .stopped
  runMarker := false
  runNumber := 0
  lastProcessedDaqTs := 0
  consumerLooping := false
  timesync := .ready
  msgSeqno := 0
  prevTimestamp := 0
  zeroTimestampCount := 0
  duplicateTimestampCount := 0
  totalTimestampCount := 0
  processed := []
  readings := []
  messages := []
  delivered := []

def test (s : TimesyncSystem) (daqTime : UInt64) (delivers : Bool) : TimesyncSystem :=
  if daqTime ≠ 0 ∧ daqTime ≠ s.prevTimestamp then
    let msg : TimeSync := ⟨daqTime, s.runNumber, s.msgSeqno + 1, conf.pidOfCurrentProcess⟩
    { s with
      timesync := .sleeping 10
      prevTimestamp := daqTime
      msgSeqno := s.msgSeqno + 1
      totalTimestampCount := s.totalTimestampCount + 1
      readings := s.readings ++ [daqTime]
      messages := s.messages ++ [msg]
      delivered := if delivers then s.delivered ++ [msg] else s.delivered }
  else
    { s with
      timesync := .sleeping 10
      zeroTimestampCount := s.zeroTimestampCount + if daqTime = 0 then 1 else 0
      duplicateTimestampCount :=
        s.duplicateTimestampCount + if daqTime = s.prevTimestamp then 1 else 0
      totalTimestampCount := s.totalTimestampCount + 1
      readings := s.readings ++ [daqTime] }

def step (s : TimesyncSystem) : TimesyncAction → Option TimesyncSystem
  | .doStart runNumber =>
    if s.phase = .stopped then
      some { s with
        phase := .settingConsumer
        runMarker := true
        runNumber := runNumber
        processed := []
        readings := []
        messages := []
        delivered := [] }
    else none
  | .setConsumerWork =>
    if s.phase = .settingConsumer then
      some { s with phase := .settingTimesync, consumerLooping := !conf.callbackMode }
    else none
  | .setTimesyncWork =>
    if s.phase = .settingTimesync then
      if s.timesync = .ready then
        some { s with
          phase := .running
          timesync := .atRunMarker
          msgSeqno := 0
          prevTimestamp := 0
          zeroTimestampCount := 0
          duplicateTimestampCount := 0
          totalTimestampCount := 0 }
      -- the work is refused
      else some { s with phase := .running }
    else none
  | .doStop =>
    if s.phase = .running then some { s with phase := .joiningTimesync, runMarker := false }
    else none
  | .joinTimesync =>
    if s.phase = .joiningTimesync ∧ s.timesync = .ready then
      some { s with phase := .joiningConsumer }
    else none
  | .joinConsumer =>
    if s.phase = .joiningConsumer ∧ s.consumerLooping = false then
      some { s with phase := .flushing }
    else none
  | .resetLastDaqTime =>
    if s.phase = .flushing then some { s with phase := .stopped, lastProcessedDaqTs := 0 }
    else none
  | .preprocess timestamp =>
    if conf.callbackMode = true ∨ s.consumerLooping = true then
      some { s with lastProcessedDaqTs := timestamp, processed := s.processed ++ [timestamp] }
    else none
  | .leaveConsumer =>
    if s.consumerLooping = true ∧ s.runMarker = false then some { s with consumerLooping := false }
    else none
  | .readRunMarker =>
    if s.timesync = .atRunMarker then
      some { s with timesync := if s.runMarker then .atDaqTime else .ready }
    else none
  | .readDaqTime =>
    if s.timesync = .atDaqTime then some { s with timesync := .atTest s.lastProcessedDaqTs }
    else none
  | .test delivers =>
    match s.timesync with
    | .atTest daqTime => some (s.test conf daqTime delivers)
    | _ => none
  | .sleep =>
    match s.timesync with
    | .sleeping rounds =>
      some { s with
        timesync := if s.runMarker = true ∧ 1 < rounds then .sleeping (rounds - 1)
          else .atRunMarker }
    | _ => none

/-- No callback comes while no run is on. -/
def InRun (s : TimesyncSystem) : TimesyncAction → Prop
  | .preprocess _ => conf.callbackMode = true → s.phase ≠ .stopped
  | _ => True

instance (s : TimesyncSystem) : (a : TimesyncAction) → Decidable (InRun conf s a)
  | .preprocess _ => inferInstanceAs (Decidable (conf.callbackMode = true → s.phase ≠ .stopped))
  | .doStart _ | .setConsumerWork | .setTimesyncWork | .doStop | .joinTimesync | .joinConsumer
  | .resetLastDaqTime | .leaveConsumer | .readRunMarker | .readDaqTime | .test _ | .sleep =>
    isTrue trivial

def nonzero (readings : List UInt64) : List UInt64 := readings.filter (· ≠ 0)

/-- The messages of a run: one for each change of the timestamp that is seen, numbered from one,
with the number of their run, about payloads of their run; in order if the payloads are. -/
structure SyncsRun (s : TimesyncSystem) : Prop where
  times : s.messages.map TimeSync.daqTime = (nonzero s.readings).destutter (· ≠ ·)
  numbers : s.messages.map TimeSync.sequenceNumber =
    (List.range s.messages.length).map fun i => UInt64.ofNat (i + 1)
  origin : ∀ m ∈ s.messages, m.runNumber = s.runNumber ∧
    m.sourcePid = conf.pidOfCurrentProcess ∧ m.daqTime ∈ s.processed
  delivered : s.delivered.Sublist s.messages
  ascending : s.processed.Pairwise (· ≤ ·) → (s.messages.map TimeSync.daqTime).Pairwise (· < ·)
  counts : s.phase.sets = false →
    s.totalTimestampCount = UInt64.ofNat s.readings.length ∧
      s.zeroTimestampCount = UInt64.ofNat (s.readings.count 0) ∧
      s.duplicateTimestampCount + UInt64.ofNat (s.messages.length +
        (s.readings.dropWhile (· = 0)).count 0) = s.totalTimestampCount

section Readings
variable (readings : List UInt64) (daqTime : UInt64)

def laterZeros : ℕ := (readings.dropWhile (· = 0)).count 0

theorem nonzero_concat : nonzero (readings ++ [daqTime]) =
    if daqTime ≠ 0 then nonzero readings ++ [daqTime] else nonzero readings := by
  rw [nonzero, List.filter_append, List.filter_singleton]
  by_cases h : daqTime = 0
  · simp [h, nonzero]
  · simp [h, nonzero]

theorem nonzero_eq_nil_iff : nonzero readings = [] ↔ readings.dropWhile (· = 0) = [] := by
  rw [nonzero, List.filter_eq_nil_iff, List.dropWhile_eq_nil_iff]
  simp

theorem laterZeros_concat : laterZeros (readings ++ [daqTime]) =
    laterZeros readings + if daqTime = 0 ∧ nonzero readings ≠ [] then 1 else 0 := by
  rw [laterZeros, laterZeros, List.dropWhile_append]
  by_cases hnil : nonzero readings = []
  · have hdrop := (nonzero_eq_nil_iff readings).mp hnil
    by_cases h : daqTime = 0 <;> simp [hdrop, hnil, h]
  · have hdrop : ¬ readings.dropWhile (· = 0) = [] := fun h =>
      hnil ((nonzero_eq_nil_iff readings).mpr h)
    have hnonempty : (readings.dropWhile (· = 0)).isEmpty = false := by
      rw [Bool.eq_false_iff, ne_eq, List.isEmpty_iff]
      exact hdrop
    by_cases h : daqTime = 0 <;> simp [hnonempty, hnil, h, List.count_append]

def lastNonzero : UInt64 := (nonzero readings).getLast?.getD 0

theorem lastNonzero_concat : lastNonzero (readings ++ [daqTime]) =
    if daqTime ≠ 0 then daqTime else lastNonzero readings := by
  rw [lastNonzero, nonzero_concat]
  split_ifs
  · rw [List.getLast?_concat, Option.getD_some]
  · rfl

variable {readings daqTime}

theorem lastNonzero_eq_iff (h : daqTime ≠ 0) :
    daqTime = lastNonzero readings ↔ (nonzero readings).getLast? = some daqTime := by
  rw [lastNonzero]
  cases (nonzero readings).getLast? with
  | none => exact ⟨fun heq => absurd heq h, nofun⟩
  | some last => rw [Option.getD_some, Option.some.injEq, eq_comm]

theorem lastNonzero_eq_zero_iff : lastNonzero readings = 0 ↔ nonzero readings = [] := by
  constructor
  · intro h
    by_contra hne
    have hlast := List.getLast_mem hne
    rw [lastNonzero, List.getLast?_eq_some_getLast hne, Option.getD_some] at h
    rw [h] at hlast
    simp [nonzero] at hlast
  · intro h
    rw [lastNonzero, h]
    rfl

theorem destutter_nonzero_concat : (nonzero (readings ++ [daqTime])).destutter (· ≠ ·) =
    if daqTime ≠ 0 ∧ daqTime ≠ lastNonzero readings then
      (nonzero readings).destutter (· ≠ ·) ++ [daqTime]
    else (nonzero readings).destutter (· ≠ ·) := by
  rw [nonzero_concat]
  by_cases hzero : daqTime = 0
  · rw [if_neg (not_not.mpr hzero), if_neg fun h => h.1 hzero]
  · rw [if_pos hzero, Destutter.destutter_concat]
    by_cases hlast : daqTime = lastNonzero readings
    · rw [if_pos ((lastNonzero_eq_iff hzero).mp hlast), if_neg fun h => h.2 hlast]
    · rw [if_neg fun h => hlast ((lastNonzero_eq_iff hzero).mpr h), if_pos ⟨hzero, hlast⟩]

end Readings

def pending : TimesyncThread → List UInt64
  | .atTest daqTime => [daqTime]
  | _ => []

/-- The variables of `run_timesync` and what has been read. -/
structure LocalsOk (s : TimesyncSystem) : Prop where
  prev : s.prevTimestamp = lastNonzero s.readings
  seqno : s.msgSeqno = UInt64.ofNat s.messages.length
  total : s.totalTimestampCount = UInt64.ofNat s.readings.length
  zero : s.zeroTimestampCount = UInt64.ofNat (s.readings.count 0)
  duplicate : s.duplicateTimestampCount +
    UInt64.ofNat (s.messages.length + laterZeros s.readings) = s.totalTimestampCount

theorem LocalsOk.frame {s : TimesyncSystem} (h : LocalsOk s) {phase : RunPhase} {runMarker : Bool}
    {runNumber : UInt32} {lastProcessedDaqTs : UInt64} {consumerLooping : Bool}
    {timesync : TimesyncThread} {processed : List UInt64} :
    LocalsOk { s with
      phase := phase
      runMarker := runMarker
      runNumber := runNumber
      lastProcessedDaqTs := lastProcessedDaqTs
      consumerLooping := consumerLooping
      timesync := timesync
      processed := processed } :=
  ⟨h.prev, h.seqno, h.total, h.zero, h.duplicate⟩

/-- The timestamps read are some of those processed, in their order, or zero before them. -/
structure Seen (processed seen : List UInt64) : Prop where
  mem : ∀ t ∈ seen, t = 0 ∨ t ∈ processed
  ascending : processed.Pairwise (· ≤ ·) → seen.Pairwise (· ≤ ·)
  bounded : processed.Pairwise (· ≤ ·) → ∀ t ∈ seen, t ≤ processed.getLast?.getD 0

structure Streaming (s : TimesyncSystem) : Prop where
  reset : s.phase = .stopped → s.lastProcessedDaqTs = 0
  last : s.phase ≠ .stopped → s.lastProcessedDaqTs = s.processed.getLast?.getD 0
  consumer : s.consumerLooping = true → s.phase.consumes = true
  thread : s.phase.syncs = false → s.timesync = .ready
  fresh : s.phase.sets = true → s.readings = [] ∧ s.messages = [] ∧ s.delivered = []
  locals : s.phase.sets = false → LocalsOk s
  seen : Seen s.processed (s.readings ++ pending s.timesync)
  times : s.messages.map TimeSync.daqTime = (nonzero s.readings).destutter (· ≠ ·)
  numbers : s.messages.map TimeSync.sequenceNumber =
    (List.range s.messages.length).map fun i => UInt64.ofNat (i + 1)
  origin : ∀ m ∈ s.messages, m.runNumber = s.runNumber ∧ m.sourcePid = conf.pidOfCurrentProcess
  delivered : s.delivered.Sublist s.messages

theorem streaming_init : Streaming conf init where
  reset := fun _ => rfl
  last := fun h => absurd rfl h
  consumer := nofun
  thread := fun _ => rfl
  fresh := nofun
  locals := fun _ => ⟨rfl, rfl, rfl, rfl, rfl⟩
  seen := ⟨nofun, fun _ => .nil, fun _ => nofun⟩
  times := rfl
  numbers := rfl
  origin := nofun
  delivered := .slnil

variable {s s' : TimesyncSystem}

section Seen
variable {processed seen : List UInt64}

theorem Seen.read (h : Seen processed seen) :
    Seen processed (seen ++ [processed.getLast?.getD 0]) where
  mem := by
    refine List.forall_mem_append.mpr ⟨h.mem, List.forall_mem_singleton.mpr ?_⟩
    cases hlast : processed.getLast? with
    | none => exact .inl rfl
    | some last => exact .inr (List.mem_of_getLast? hlast)
  ascending := by
    intro hsorted
    rw [List.pairwise_append]
    refine ⟨h.ascending hsorted, List.pairwise_singleton _ _, fun t ht u hu => ?_⟩
    rw [List.mem_singleton.mp hu]
    exact h.bounded hsorted t ht
  bounded := fun hsorted => List.forall_mem_append.mpr
    ⟨h.bounded hsorted, List.forall_mem_singleton.mpr UInt64.le_rfl⟩

theorem Seen.process (h : Seen processed seen) (timestamp : UInt64) :
    Seen (processed ++ [timestamp]) seen where
  mem := fun t ht => (h.mem t ht).imp_right (List.mem_append_left _)
  ascending := fun hsorted => h.ascending (List.pairwise_append.mp hsorted).1
  bounded := by
    intro hsorted t ht
    obtain ⟨hbefore, _, hle⟩ := List.pairwise_append.mp hsorted
    rw [List.getLast?_concat, Option.getD_some]
    have ht' := h.bounded hbefore t ht
    cases hlast : processed.getLast? with
    | none =>
      rw [hlast, Option.getD_none] at ht'
      exact UInt64.le_trans ht' UInt64.zero_le
    | some last =>
      rw [hlast, Option.getD_some] at ht'
      exact UInt64.le_trans ht' (hle last (List.mem_of_getLast? hlast) timestamp
        (List.mem_singleton_self _))

end Seen

theorem test_sent {daqTime : UInt64} (hzero : daqTime ≠ 0) (hprev : daqTime ≠ s.prevTimestamp)
    (delivers : Bool) :
    s.test conf daqTime delivers =
      { s with
        timesync := .sleeping 10
        prevTimestamp := daqTime
        msgSeqno := s.msgSeqno + 1
        totalTimestampCount := s.totalTimestampCount + 1
        readings := s.readings ++ [daqTime]
        messages := s.messages ++
          [⟨daqTime, s.runNumber, s.msgSeqno + 1, conf.pidOfCurrentProcess⟩]
        delivered := if delivers then s.delivered ++
          [⟨daqTime, s.runNumber, s.msgSeqno + 1, conf.pidOfCurrentProcess⟩] else s.delivered } :=
  if_pos ⟨hzero, hprev⟩

theorem test_skipped {daqTime : UInt64} (h : ¬ (daqTime ≠ 0 ∧ daqTime ≠ s.prevTimestamp))
    (delivers : Bool) :
    s.test conf daqTime delivers =
      { s with
        timesync := .sleeping 10
        zeroTimestampCount := s.zeroTimestampCount + if daqTime = 0 then 1 else 0
        duplicateTimestampCount :=
          s.duplicateTimestampCount + if daqTime = s.prevTimestamp then 1 else 0
        totalTimestampCount := s.totalTimestampCount + 1
        readings := s.readings ++ [daqTime] } :=
  if_neg h

theorem LocalsOk.test_sent (h : LocalsOk s) {daqTime : UInt64} (hzero : daqTime ≠ 0)
    (hprev : daqTime ≠ s.prevTimestamp) (delivers : Bool) :
    LocalsOk (s.test conf daqTime delivers) := by
  rw [TimesyncSystem.test_sent conf hzero hprev]
  refine ⟨?_, ?_, ?_, ?_, ?_⟩
  · show daqTime = lastNonzero (s.readings ++ [daqTime])
    rw [lastNonzero_concat, if_pos hzero]
  · show s.msgSeqno + 1 = UInt64.ofNat (s.messages ++ [_]).length
    rw [List.length_append, List.length_singleton, h.seqno]
    exact (UInt64.ofNat_add _ _).symm
  · show s.totalTimestampCount + 1 = UInt64.ofNat (s.readings ++ [daqTime]).length
    rw [List.length_append, List.length_singleton, h.total]
    exact (UInt64.ofNat_add _ _).symm
  · show s.zeroTimestampCount = UInt64.ofNat ((s.readings ++ [daqTime]).count 0)
    rw [List.count_append, List.count_singleton, if_neg fun heq => hzero (beq_iff_eq.mp heq),
      h.zero, Nat.add_zero]
  · show s.duplicateTimestampCount + UInt64.ofNat ((s.messages ++ [_]).length +
      laterZeros (s.readings ++ [daqTime])) = s.totalTimestampCount + 1
    rw [laterZeros_concat, if_neg fun hz => hzero hz.1, List.length_append, List.length_singleton,
      Nat.add_zero (laterZeros _), Nat.add_right_comm, UInt64.ofNat_add, ← UInt64.add_assoc,
      h.duplicate]
    rfl

theorem LocalsOk.test_skipped (h : LocalsOk s) {daqTime : UInt64}
    (hskip : ¬ (daqTime ≠ 0 ∧ daqTime ≠ s.prevTimestamp)) (delivers : Bool) :
    LocalsOk (s.test conf daqTime delivers) := by
  rw [TimesyncSystem.test_skipped conf hskip]
  refine ⟨?_, h.seqno, ?_, ?_, ?_⟩
  · show s.prevTimestamp = lastNonzero (s.readings ++ [daqTime])
    rw [lastNonzero_concat]
    split_ifs with hzero
    · by_contra hne
      exact hskip ⟨hzero, fun heq => hne heq.symm⟩
    · exact h.prev
  · show s.totalTimestampCount + 1 = UInt64.ofNat (s.readings ++ [daqTime]).length
    rw [List.length_append, List.length_singleton, h.total]
    exact (UInt64.ofNat_add _ _).symm
  · show s.zeroTimestampCount + (if daqTime = 0 then 1 else 0) =
      UInt64.ofNat ((s.readings ++ [daqTime]).count 0)
    rw [List.count_append, List.count_singleton, h.zero, UInt64.ofNat_add]
    simp only [beq_iff_eq]
    split_ifs <;> rfl
  · show s.duplicateTimestampCount + (if daqTime = s.prevTimestamp then 1 else 0) +
      UInt64.ofNat (s.messages.length + laterZeros (s.readings ++ [daqTime])) =
        s.totalTimestampCount + 1
    have hcounts : (if daqTime = s.prevTimestamp then (1 : UInt64) else 0) +
        UInt64.ofNat (if daqTime = 0 ∧ nonzero s.readings ≠ [] then 1 else 0) = 1 := by
      by_cases hzero : daqTime = 0
      · -- a zero repeats the variable just as long as nothing has been sent
        have hrepeats : daqTime = s.prevTimestamp ↔ nonzero s.readings = [] := by
          rw [h.prev, hzero, eq_comm, lastNonzero_eq_zero_iff]
        by_cases hnil : nonzero s.readings = []
        · rw [if_pos (hrepeats.mpr hnil), if_neg fun hz => hz.2 hnil]
          rfl
        · rw [if_neg fun heq => hnil (hrepeats.mp heq), if_pos ⟨hzero, hnil⟩]
          rfl
      · have hrepeats : daqTime = s.prevTimestamp := by
          by_contra hne
          exact hskip ⟨hzero, hne⟩
        rw [if_pos hrepeats, if_neg fun hz => hzero hz.1]
        rfl
    have hcomm : ∀ d c n z : UInt64, d + c + (n + z) = d + n + (c + z) := by
      intros
      ac_rfl
    rw [laterZeros_concat, ← Nat.add_assoc, UInt64.ofNat_add, hcomm, h.duplicate, hcounts]

theorem active_of_ne_ready (hthread : s.phase.syncs = false → s.timesync = .ready)
    (hne : s.timesync ≠ .ready) : s.phase.syncs ≠ false := fun hidle => hne (hthread hidle)

variable {conf}

theorem Streaming.test (h : Streaming conf s) {daqTime : UInt64}
    (hthread : s.timesync = .atTest daqTime) (delivers : Bool) :
    Streaming conf (s.test conf daqTime delivers) := by
  have hsyncs := active_of_ne_ready h.thread (by rw [hthread]; nofun)
  have hsets : s.phase.sets = false := by
    cases hphase : s.phase <;> first | rfl | exact absurd (by rw [hphase]; rfl) hsyncs
  have hlocals := h.locals hsets
  have hseen : Seen s.processed ((s.readings ++ [daqTime]) ++ []) := by
    rw [List.append_nil]
    have hseen := h.seen
    rwa [hthread] at hseen
  by_cases hsent : daqTime ≠ 0 ∧ daqTime ≠ s.prevTimestamp
  · have hnext := hlocals.test_sent conf hsent.1 hsent.2 delivers
    rw [TimesyncSystem.test_sent conf hsent.1 hsent.2] at hnext ⊢
    refine ⟨h.reset, h.last, h.consumer, fun hidle => absurd hidle hsyncs,
      fun hset => absurd hset (by rw [hsets]; exact Bool.false_ne_true), fun _ => hnext, hseen,
      ?_, ?_, ?_, ?_⟩
    · show (s.messages ++ [_]).map TimeSync.daqTime =
        (nonzero (s.readings ++ [daqTime])).destutter (· ≠ ·)
      rw [destutter_nonzero_concat, ← hlocals.prev, if_pos hsent, List.map_append, h.times]
      rfl
    · show (s.messages ++ [_]).map TimeSync.sequenceNumber =
        (List.range (s.messages ++ [_]).length).map fun i => UInt64.ofNat (i + 1)
      rw [List.length_append, List.length_singleton, List.range_succ, List.map_append,
        List.map_append, h.numbers, hlocals.seqno]
      simp only [List.map_cons, List.map_nil, UInt64.ofNat_add, UInt64.ofNat_one]
    · exact List.forall_mem_append.mpr ⟨h.origin, List.forall_mem_singleton.mpr ⟨rfl, rfl⟩⟩
    · show List.Sublist (if delivers = true then s.delivered ++ [_] else s.delivered)
        (s.messages ++ [_])
      split_ifs
      · exact h.delivered.append_right _
      · exact h.delivered.trans (List.sublist_append_left _ _)
  · have hnext := hlocals.test_skipped conf hsent delivers
    rw [TimesyncSystem.test_skipped conf hsent] at hnext ⊢
    refine ⟨h.reset, h.last, h.consumer, fun hidle => absurd hidle hsyncs,
      fun hset => absurd hset (by rw [hsets]; exact Bool.false_ne_true), fun _ => hnext, hseen, ?_,
      h.numbers, h.origin, h.delivered⟩
    show s.messages.map TimeSync.daqTime = (nonzero (s.readings ++ [daqTime])).destutter (· ≠ ·)
    rw [destutter_nonzero_concat, ← hlocals.prev, if_neg hsent]
    exact h.times

section Actions
variable (h : Streaming conf s)
include h

theorem Streaming.doStart {runNumber : UInt32}
    (hstep : TimesyncSystem.step conf s (.doStart runNumber) = some s') : Streaming conf s' := by
  rw [TimesyncSystem.step] at hstep
  split_ifs at hstep with hphase
  cases hstep
  have hready : s.timesync = .ready := h.thread (by rw [hphase]; rfl)
  refine ⟨nofun, fun _ => h.reset hphase, fun hloop => ?_, fun _ => hready,
    fun _ => ⟨rfl, rfl, rfl⟩, nofun, ?_, rfl, rfl, nofun, .slnil⟩
  · have hconsumes := h.consumer hloop
    rw [hphase] at hconsumes
    cases hconsumes
  · rw [hready]
    exact ⟨nofun, fun _ => .nil, fun _ => nofun⟩

theorem Streaming.setConsumerWork
    (hstep : TimesyncSystem.step conf s .setConsumerWork = some s') : Streaming conf s' := by
  rw [TimesyncSystem.step] at hstep
  split_ifs at hstep with hphase
  cases hstep
  have hset : s.phase.sets = true := by rw [hphase]; rfl
  have hidle : s.phase.syncs = false := by rw [hphase]; rfl
  exact ⟨nofun, fun _ => h.last (by rw [hphase]; decide), fun _ => rfl, fun _ => h.thread hidle,
    fun _ => h.fresh hset, nofun, h.seen, h.times, h.numbers, h.origin, h.delivered⟩

theorem Streaming.setTimesyncWork
    (hstep : TimesyncSystem.step conf s .setTimesyncWork = some s') : Streaming conf s' := by
  have hseen := h.seen
  rw [TimesyncSystem.step] at hstep
  split_ifs at hstep with hphase hready
  · cases hstep
    obtain ⟨hreadings, hmessages, _⟩ := h.fresh (by rw [hphase]; rfl)
    refine ⟨nofun, fun _ => h.last (by rw [hphase]; decide), fun _ => rfl, nofun, nofun,
      fun _ => ?_, ?_, h.times, h.numbers, h.origin, h.delivered⟩
    · refine ⟨?_, ?_, ?_, ?_, ?_⟩
      all_goals simp [hreadings, hmessages, lastNonzero, nonzero, laterZeros]
    · rw [hready] at hseen
      exact hseen
  · exact absurd (h.thread (by rw [hphase]; rfl)) hready

theorem Streaming.doStop
    (hstep : TimesyncSystem.step conf s .doStop = some s') : Streaming conf s' := by
  rw [TimesyncSystem.step] at hstep
  split_ifs at hstep with hphase
  cases hstep
  have hset : s.phase.sets = false := by rw [hphase]; rfl
  exact ⟨nofun, fun _ => h.last (by rw [hphase]; decide), fun _ => rfl, nofun, nofun,
    fun _ => (h.locals hset).frame, h.seen, h.times, h.numbers, h.origin, h.delivered⟩

theorem Streaming.joinTimesync
    (hstep : TimesyncSystem.step conf s .joinTimesync = some s') : Streaming conf s' := by
  rw [TimesyncSystem.step] at hstep
  split_ifs at hstep with hphase
  cases hstep
  have hset : s.phase.sets = false := by rw [hphase.1]; rfl
  exact ⟨nofun, fun _ => h.last (by rw [hphase.1]; decide), fun _ => rfl, fun _ => hphase.2, nofun,
    fun _ => (h.locals hset).frame, h.seen, h.times, h.numbers, h.origin, h.delivered⟩

theorem Streaming.joinConsumer
    (hstep : TimesyncSystem.step conf s .joinConsumer = some s') : Streaming conf s' := by
  rw [TimesyncSystem.step] at hstep
  split_ifs at hstep with hphase
  cases hstep
  have hset : s.phase.sets = false := by rw [hphase.1]; rfl
  have hidle : s.phase.syncs = false := by rw [hphase.1]; rfl
  refine ⟨nofun, fun _ => h.last (by rw [hphase.1]; decide), fun hloop => ?_,
    fun _ => h.thread hidle, nofun,
    fun _ => (h.locals hset).frame, h.seen, h.times, h.numbers, h.origin, h.delivered⟩
  exact absurd (hphase.2.symm.trans hloop) Bool.false_ne_true

theorem Streaming.resetLastDaqTime
    (hstep : TimesyncSystem.step conf s .resetLastDaqTime = some s') : Streaming conf s' := by
  rw [TimesyncSystem.step] at hstep
  split_ifs at hstep with hphase
  cases hstep
  have hset : s.phase.sets = false := by rw [hphase]; rfl
  have hidle : s.phase.syncs = false := by rw [hphase]; rfl
  refine ⟨fun _ => rfl, fun hne => absurd rfl hne, fun hloop => ?_, fun _ => h.thread hidle, nofun,
    fun _ => (h.locals hset).frame, h.seen, h.times, h.numbers, h.origin, h.delivered⟩
  have hconsumes := h.consumer hloop
  rw [hphase] at hconsumes
  cases hconsumes

theorem Streaming.preprocess {timestamp : UInt64}
    (hin : InRun conf s (.preprocess timestamp))
    (hstep : TimesyncSystem.step conf s (.preprocess timestamp) = some s') : Streaming conf s' := by
  rw [TimesyncSystem.step] at hstep
  split_ifs at hstep with henabled
  cases hstep
  have hphase : s.phase ≠ .stopped := by
    rcases henabled with hcallback | hloop
    · exact hin hcallback
    · intro hstopped
      have hconsumes := h.consumer hloop
      rw [hstopped] at hconsumes
      cases hconsumes
  refine ⟨fun hstopped => absurd hstopped hphase, fun _ => ?_, h.consumer, h.thread, h.fresh,
    fun hset => (h.locals hset).frame, h.seen.process timestamp, h.times, h.numbers, h.origin,
    h.delivered⟩
  show timestamp = (s.processed ++ [timestamp]).getLast?.getD 0
  rw [List.getLast?_concat, Option.getD_some]

theorem Streaming.leaveConsumer
    (hstep : TimesyncSystem.step conf s .leaveConsumer = some s') : Streaming conf s' := by
  rw [TimesyncSystem.step] at hstep
  split_ifs at hstep with hleaves
  cases hstep
  exact ⟨h.reset, h.last, nofun, h.thread, h.fresh,
    fun hset => (h.locals hset).frame, h.seen, h.times, h.numbers, h.origin, h.delivered⟩

theorem Streaming.readRunMarker
    (hstep : TimesyncSystem.step conf s .readRunMarker = some s') : Streaming conf s' := by
  have hseen := h.seen
  rw [TimesyncSystem.step] at hstep
  split_ifs at hstep with hmarker
  all_goals
    cases hstep
    have hactive := active_of_ne_ready h.thread (by rw [hmarker]; nofun)
    rw [hmarker] at hseen
    exact ⟨h.reset, h.last, h.consumer, fun hidle => absurd hidle hactive, h.fresh,
      fun hset => (h.locals hset).frame, hseen, h.times, h.numbers, h.origin, h.delivered⟩

theorem Streaming.readDaqTime
    (hstep : TimesyncSystem.step conf s .readDaqTime = some s') : Streaming conf s' := by
  have hseen := h.seen
  rw [TimesyncSystem.step] at hstep
  split_ifs at hstep with hdaq
  cases hstep
  have hactive := active_of_ne_ready h.thread (by rw [hdaq]; nofun)
  have hphase : s.phase ≠ .stopped := by
    intro hstopped
    exact hactive (by rw [hstopped]; rfl)
  refine ⟨h.reset, h.last, h.consumer, fun hidle => absurd hidle hactive, h.fresh,
    fun hset => (h.locals hset).frame, ?_, h.times, h.numbers, h.origin, h.delivered⟩
  show Seen s.processed (s.readings ++ [s.lastProcessedDaqTs])
  rw [hdaq] at hseen
  rw [h.last hphase, ← List.append_nil s.readings]
  exact hseen.read

theorem Streaming.sleep
    (hstep : TimesyncSystem.step conf s .sleep = some s') : Streaming conf s' := by
  rw [TimesyncSystem.step] at hstep
  split at hstep
  · rename_i rounds hsleeping
    cases hstep
    have hactive := active_of_ne_ready h.thread (by rw [hsleeping]; nofun)
    refine ⟨h.reset, h.last, h.consumer, fun hidle => absurd hidle hactive, h.fresh,
      fun hset => (h.locals hset).frame, ?_, h.times, h.numbers, h.origin, h.delivered⟩
    have hpending : pending (if s.runMarker = true ∧ 1 < rounds then .sleeping (rounds - 1)
        else .atRunMarker) = pending s.timesync := by
      rw [hsleeping]
      split_ifs <;> rfl
    show Seen s.processed (s.readings ++ pending _)
    rw [hpending]
    exact h.seen
  · cases hstep

theorem Streaming.step {a : TimesyncAction} (hin : InRun conf s a)
    (hstep : TimesyncSystem.step conf s a = some s') : Streaming conf s' := by
  cases a with
  | doStart runNumber => exact h.doStart hstep
  | setConsumerWork => exact h.setConsumerWork hstep
  | setTimesyncWork => exact h.setTimesyncWork hstep
  | doStop => exact h.doStop hstep
  | joinTimesync => exact h.joinTimesync hstep
  | joinConsumer => exact h.joinConsumer hstep
  | resetLastDaqTime => exact h.resetLastDaqTime hstep
  | preprocess timestamp => exact h.preprocess hin hstep
  | leaveConsumer => exact h.leaveConsumer hstep
  | readRunMarker => exact h.readRunMarker hstep
  | readDaqTime => exact h.readDaqTime hstep
  | sleep => exact h.sleep hstep
  | test delivers =>
    rw [TimesyncSystem.step] at hstep
    split at hstep
    · cases hstep
      exact h.test ‹_› delivers
    · cases hstep

end Actions

theorem Streaming.syncsRun (h : Streaming conf s) : SyncsRun conf s where
  times := h.times
  numbers := h.numbers
  delivered := h.delivered
  origin := by
    intro m hm
    obtain ⟨hrun, hpid⟩ := h.origin m hm
    refine ⟨hrun, hpid, ?_⟩
    have htime : m.daqTime ∈ (nonzero s.readings).destutter (· ≠ ·) := by
      rw [← h.times]
      exact List.mem_map_of_mem hm
    have hmem := (List.destutter_sublist _ _).subset htime
    obtain ⟨hread, hne⟩ := List.mem_filter.mp hmem
    rcases h.seen.mem m.daqTime (List.mem_append_left _ hread) with hzero | hprocessed
    · exact absurd hzero (of_decide_eq_true hne)
    · exact hprocessed
  ascending := by
    intro hsorted
    rw [h.times]
    have hread : s.readings.Pairwise fun x y => x.toNat ≤ y.toNat :=
      (List.pairwise_append.mp (h.seen.ascending hsorted)).1.imp UInt64.le_iff_toNat_le.mp
    have hlt := Destutter.pairwise_lt_destutter (fun x y => UInt64.toNat_inj.mp)
      (hread.sublist (List.filter_sublist : (nonzero s.readings).Sublist s.readings))
    exact hlt.imp UInt64.lt_iff_toNat_lt.mpr
  counts := by
    intro hset
    have hlocals := h.locals hset
    exact ⟨hlocals.total, hlocals.zero, hlocals.duplicate⟩

/-- In every interleaving of the commands, the payloads and the timesync thread, the messages of
each run are a clean stream. -/
theorem run_syncsRun (conf : TimesyncConf) (as : List TimesyncAction) (s : TimesyncSystem)
    (hin : Execution.StepsMeet (TimesyncSystem.step conf) (InRun conf) init as)
    (hrun : Execution.run (TimesyncSystem.step conf) init as = some s) : SyncsRun conf s := by
  have hstreaming : Streaming conf s :=
    Execution.run_invariant_of_stepsMeet (fun _ _ _ h hcond hstep => h.step hcond hstep)
      (streaming_init conf) hin hrun
  exact hstreaming.syncsRun

def pollingConf : TimesyncConf := ⟨false, 1⟩

def timesyncPass : List TimesyncAction :=
  [.readRunMarker, .readDaqTime, .test true] ++ List.replicate 10 .sleep

def twoRuns : List TimesyncAction :=
  [[.doStart 7, .setConsumerWork, .setTimesyncWork], timesyncPass, [.preprocess 100], timesyncPass,
    timesyncPass, [.doStop, .readRunMarker, .joinTimesync, .preprocess 120, .leaveConsumer,
      .joinConsumer, .resetLastDaqTime, .doStart 8, .setConsumerWork, .setTimesyncWork,
      .preprocess 130], timesyncPass].flatten

theorem twoRuns_inRun :
    Execution.StepsMeet (TimesyncSystem.step pollingConf) (InRun pollingConf) init twoRuns :=
  Execution.stepsMeet_of_checkSteps (fun _ _ => of_decide_eq_true)
    (by decide +kernel : Execution.checkSteps (TimesyncSystem.step pollingConf)
      (fun s a => decide (InRun pollingConf s a)) init twoRuns = true)

theorem run_syncsRun_twoRuns : SyncsRun pollingConf
    ((Execution.run (TimesyncSystem.step pollingConf) init twoRuns).get (by decide +kernel)) :=
  run_syncsRun pollingConf twoRuns _ twoRuns_inRun (Option.some_get _).symm

end TimesyncSystem
end DataHandling

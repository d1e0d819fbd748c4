import DataHandling.Buffer.SkipList
import DataHandling.Consumer.Timesync
import DataHandling.Request.Arrival

/-! Runs one after another: the commands of a `DataHandlingModel` set its request handler and its
consumer to work, wait for them and flush the latency buffer, so that the answers given in a run
hold data of that run only. -/

namespace DataHandling
open LatencyBuffer IterableQueueModel MachineInt

/-- An iterator of the buffer stands at the element. -/
def Holds {LB T : Type} [LatencyBuffer LB T] (lb : LB) (x : T) : Prop :=
  ∃ it, deref lb it = some x

/-- A buffer that only holds what was written to it, and nothing once it is flushed. -/
class FlushedBuffer (LB : Type) (T : outParam Type) [LatencyBuffer LB T] where
  Flushable : LB → Prop
  Counts : ℕ → LB → Prop
  holds_write : ∀ {lb : LB} {x y : T}, Holds (write lb x).2 y →
    Holds lb y ∨ (write lb x).1 = true ∧ y = x
  holds_pop : ∀ {lb lb' : LB} {n : ℕ} {y : T}, pop n lb = some lb' → Holds lb' y → Holds lb y
  counts_occupancy : ∀ {lb : LB}, Flushable lb → Counts (occupancy lb) lb
  counts_pop : ∀ {lb lb' : LB} {n : ℕ}, Counts (n + 1) lb → pop 1 lb = some lb' → Counts n lb'
  not_holds_of_counts : ∀ {lb : LB} {y : T}, Counts 0 lb → ¬Holds lb y

section Buffers
variable {T : Type}

theorem records_write {q : IterableQueueModel T} {x y : T} {slot : ℕ}
    (h : (q.write x).2.records slot = some y) :
    q.records slot = some y ∨ (q.write x).1 = true ∧ y = x := by
  unfold IterableQueueModel.write at h ⊢
  split_ifs at h ⊢ with hroom
  · rw [placeBack_records, Function.update_apply] at h
    split_ifs at h
    · exact .inr ⟨rfl, (Option.some.inj h).symm⟩
    · exact .inl h
  · exact .inl h

theorem records_pop {n : ℕ} {q q' : IterableQueueModel T} {y : T} {slot : ℕ}
    (hpop : IterableQueueModel.pop n q = some q') (h : q'.records slot = some y) :
    q.records slot = some y := by
  induction n generalizing q with
  | zero =>
    cases hpop
    exact h
  | succ n ih =>
    obtain ⟨q₁, hfront, hrest⟩ := Option.bind_eq_some_iff.mp hpop
    have hq₁ := ih hrest
    rw [popFront] at hfront
    split_ifs at hfront
    cases hfront
    rw [dropFront_records, Function.update_apply] at hq₁
    split_ifs at hq₁
    exact hq₁

variable [ReadoutType T]

instance {LB : Type} [LatencyBuffer LB T] [RingBuffer LB T] : FlushedBuffer LB T where
  Flushable lb :=
    (RingBuffer.queue lb).size < 2147483648 ∧ ∃ xs, Represents (RingBuffer.queue lb) xs
  Counts n lb := ∃ xs, Represents (RingBuffer.queue lb) xs ∧ xs.length = n
  holds_write {lb x y} h := by
    obtain ⟨slot, hslot⟩ := h
    rw [RingBuffer.deref_eq, RingBuffer.write_snd] at hslot
    rw [RingBuffer.write_fst]
    rcases records_write hslot with hold | hnew
    · exact .inl ⟨slot, (RingBuffer.deref_eq lb slot).trans hold⟩
    · exact .inr hnew
  holds_pop {lb lb' n y} hpop h := by
    obtain ⟨slot, hslot⟩ := h
    have hqueue := RingBuffer.pop_eq lb n
    rw [hpop, Option.map_some] at hqueue
    rw [RingBuffer.deref_eq] at hslot
    exact ⟨slot, (RingBuffer.deref_eq lb slot).trans (records_pop hqueue.symm hslot)⟩
  counts_occupancy {lb} hflush := by
    obtain ⟨hsize, xs, hrep⟩ := hflush
    exact ⟨xs, hrep, by rw [RingBuffer.occupancy_eq, hrep.occupancy_eq hsize]⟩
  counts_pop {lb lb' n} h hpop := by
    obtain ⟨xs, hrep, hlength⟩ := h
    have hqueue := RingBuffer.pop_eq lb 1
    obtain ⟨q', hq', hrest, _⟩ := hrep.pop_of_le (x := 1) (by omega)
    rw [hpop, Option.map_some, hq', Option.some.injEq] at hqueue
    rw [← hqueue] at hrest
    exact ⟨xs.drop 1, hrest, by rw [List.length_drop]; omega⟩
  not_holds_of_counts {lb y} h hy := by
    obtain ⟨xs, hrep, hlength⟩ := h
    obtain ⟨slot, hslot⟩ := hy
    rw [RingBuffer.deref_eq] at hslot
    have hmem := (hrep.mem_iff y).mpr ⟨slot, hslot⟩
    rw [List.length_eq_zero_iff.mp hlength] at hmem
    cases hmem

instance : FlushedBuffer (SkipListLatencyBufferModel T) T where
  Flushable s := s.elements.length < 2147483648
  Counts n s := s.elements.length = n
  holds_write {s x y} h := by
    obtain ⟨it, hit⟩ := h
    rcases (s.mem_elements_write x y).mp (List.mem_of_getElem? hit) with hold | hnew
    · exact .inl (List.mem_iff_getElem?.mp hold)
    · exact .inr hnew
  holds_pop {s s' n y} hpop h := by
    obtain ⟨it, hit⟩ := h
    obtain rfl := SkipListLatencyBufferModel.pop_eq_some hpop
    have hmem : y ∈ (SkipListLatencyBufferModel.pop n s).elements := List.mem_of_getElem? hit
    rw [SkipListLatencyBufferModel.elements_pop] at hmem
    exact List.mem_iff_getElem?.mp (List.mem_of_mem_take hmem)
  counts_occupancy {s} hflush := by
    show s.elements.length = s.occupancy
    rw [SkipListLatencyBufferModel.occupancy, i32_of_lt hflush, toSize_natCast (by omega)]
  counts_pop {s s' n} h hpop := by
    obtain rfl := SkipListLatencyBufferModel.pop_eq_some hpop
    show (SkipListLatencyBufferModel.pop 1 s).elements.length = n
    rw [SkipListLatencyBufferModel.elements_pop, List.length_take, h]
    omega
  not_holds_of_counts {s y} h hy := by
    obtain ⟨it, hit⟩ := hy
    have hmem : y ∈ s.elements := List.mem_of_getElem? hit
    rw [List.length_eq_zero_iff.mp h] at hmem
    cases hmem

end Buffers

def RunPhase.served : RunPhase → Bool
  | .stopped | .joiningConsumer | .flushing => true
  | _ => false

/-- The thread in `run_consume`: out of its loop, before it reads the run marker, or with a payload
that it received. -/
inductive ConsumerThread where
  | ready
  | atRunMarker
  | processing
  deriving DecidableEq

/-- An answer as `data_request` builds it: the frames copied into the fragment, and the run. -/
structure RequestAnswer (T : Type) where
  task : PoolTask
  result : RequestResult
  frames : List (Frame T)
  run : ℕ

/-- The request handler with the latency buffer, the consumer thread, and what the commands do
next, with the pops that a flush has left. The log of the payloads accepted names the run that each
was accepted in. -/
structure RunSystem (LB T : Type) where
  handler : RequestSystem LB
  phase : RunPhase
  flushLeft : Option ℕ
  runMarker : Bool
  consumer : ConsumerThread
  accepted : List (T × ℕ)
  answers : List (RequestAnswer T)

/-- The steps of the commands, of the consumer thread or the callback that payloads come in by, and
of the handler's threads. -/
inductive RunAction (T : Type) where
  | doStart
  | setConsumerWork
  | addCallback
  | doStop
  | joinRequestHandler
  | joinConsumer
  | flush
  | popOne
  | endFlush
  | readRunMarker
  | processItem (payload : T)
  | endPass
  | consumePayload (payload : T)
  | issueRequest (request : DataRequest)
  | dataRequest (i : ℕ) (registry : FrameErrorRegistry)
  | handlerThread (a : RequestAction T)
  | cleanup (count : ℕ)

def RequestAction.ofThread {T : Type} : RequestAction T → Bool
  | .take _ | .conclude _ _ | .readRunMarker | .readSize | .checkWaitingRequests _
  | .joinWaitingThread | .joinPool => true
  | _ => false

structure RunConf where
  callbackMode : Bool
  requestTimeoutMs : ℤ
  source : FragmentSource
  fuel : ℕ

def RunConf.handler (LB : Type) (conf : RunConf) : HandlerConf LB :=
  ⟨conf.requestTimeoutMs, fun _ _ _ => true⟩

namespace RunSystem
variable {T LB : Type} [ReadoutType T] [LatencyBuffer LB T]

def init (buffer : LB) : RunSystem LB T where
  handler := .init buffer
  phase := .stopped
  flushLeft := none
  runMarker := false
  consumer := .ready
  accepted := []
  answers := []

variable (conf : RunConf)

def stepHandler (s : RunSystem LB T) (a : RequestAction T) : Option (RunSystem LB T) :=
  (RequestSystem.step (conf.handler LB) s.handler a).map fun handler =>
    { s with handler := handler }

def store (s : RunSystem LB T) (payload : T) : RunSystem LB T :=
  { s with
    handler := { s.handler with buffer := (write s.handler.buffer payload).2 }
    accepted :=
      if (write s.handler.buffer payload).1 then s.accepted ++ [(payload, s.handler.currentRun)]
      else s.accepted }

def dataRequest (s : RunSystem LB T) (i : ℕ) (registry : FrameErrorRegistry) :
    Option (RunSystem LB T) :=
  s.handler.serving[i]?.bind fun task =>
    (DataHandling.dataRequest s.handler.buffer registry conf.source conf.fuel s.handler.stats
      task.tracked.request).bind fun res =>
        (s.stepHandler conf (.evaluate i res.1.resultCode)).map fun s' =>
          { s' with
            answers := s'.answers ++
              [⟨task, res.1, framesOf s.handler.buffer res.1.pieces, s.handler.currentRun⟩] }

/-- One atomic step. Without a consumer thread payloads come in by the callback, which is never
removed. -/
def step (s : RunSystem LB T) : RunAction T → Option (RunSystem LB T)
  | .doStart =>
    if s.phase = .stopped then
      stepHandler conf { s with phase := .settingConsumer, runMarker := true } .start
    else none
  | .setConsumerWork =>
    if s.phase = .settingConsumer then
      some { s with
        phase := .settingTimesync
        consumer := if conf.callbackMode then .ready else .atRunMarker }
    else none
  | .addCallback =>
    if s.phase = .settingTimesync then some { s with phase := .running } else none
  | .doStop =>
    if s.phase = .running then
      stepHandler conf { s with phase := .joiningTimesync, runMarker := false } .stop
    else none
  | .joinRequestHandler =>
    if s.phase = .joiningTimesync ∧ s.handler.phase = .stopped then
      some { s with phase := .joiningConsumer }
    else none
  | .joinConsumer =>
    if s.phase = .joiningConsumer ∧ s.consumer = .ready then some { s with phase := .flushing }
    else none
  -- `pop(occupancy())`, one element at a time
  | .flush =>
    if s.phase = .flushing ∧ s.flushLeft = none then
      some { s with flushLeft := some (occupancy s.handler.buffer) }
    else none
  | .popOne =>
    match s.flushLeft with
    | some (left + 1) =>
      (pop 1 s.handler.buffer).map fun buffer =>
        { s with flushLeft := some left, handler := { s.handler with buffer := buffer } }
    | _ => none
  | .endFlush =>
    if s.flushLeft = some 0 then some { s with phase := .stopped, flushLeft := none } else none
  | .readRunMarker =>
    if s.consumer = .atRunMarker then
      some { s with consumer := if s.runMarker then .processing else .ready }
    else none
  | .processItem payload =>
    if s.consumer = .processing then some (s.store payload) else none
  | .endPass =>
    if s.consumer = .processing then some { s with consumer := .atRunMarker } else none
  | .consumePayload payload => if conf.callbackMode then some (s.store payload) else none
  | .issueRequest request =>
    if s.phase = .running then s.stepHandler conf (.issueRequest request) else none
  | .dataRequest i registry => s.dataRequest conf i registry
  | .handlerThread a => if a.ofThread then s.stepHandler conf a else none
  | .cleanup count =>
    if s.handler.phase = .running ∨ s.handler.phase = .joiningWaitingThread then
      s.stepHandler conf (.cleanup count)
    else none

/-- What the environment has to see to: in callback mode no payload comes in while no run is on,
nor during the flush at the end of one. -/
def PayloadsInRuns [FlushedBuffer LB T] (s : RunSystem LB T) : RunAction T → Prop
  | .consumePayload _ => s.phase ≠ .stopped ∧ s.phase ≠ .flushing
  | .flush => FlushedBuffer.Flushable s.handler.buffer
  | _ => True

/-- The answers given in a run hold data accepted in that run, a request is first evaluated in the
run that it was issued in, and nothing is left of a run that has stopped. -/
structure RunIsolated (s : RunSystem LB T) : Prop where
  frames : ∀ answer ∈ s.answers, ∀ f ∈ answer.frames, (f.element, answer.run) ∈ s.accepted
  firstTry : ∀ answer ∈ s.answers, answer.task.isRetry = false →
    answer.task.tracked.run = answer.run
  flushed : s.phase = .stopped → ∀ x, ¬Holds s.handler.buffer x

section Threads
variable {handlerConf : HandlerConf LB} {h h' : RequestSystem LB} {a : RequestAction T}

/-- What the steps of the handler's own threads leave as it is. -/
structure SameRun (h h' : RequestSystem LB) : Prop where
  buffer : h'.buffer = h.buffer
  currentRun : h'.currentRun = h.currentRun
  stopped : h.phase = .stopped → h'.phase = .stopped
  firstTries : ∀ task ∈ h'.poolQueue ++ h'.serving, task.isRetry = false →
    task ∈ h.poolQueue ++ h.serving

theorem sameRun_of_ofThread (hthread : a.ofThread = true)
    (hstep : RequestSystem.step handlerConf h a = some h') : SameRun h h' := by
  cases a with
  | start | issueRequest | evaluate | stop | write | cleanup => cases hthread
  | take i =>
    obtain ⟨task, htask, rfl⟩ := Option.map_eq_some_iff.mp hstep
    refine ⟨rfl, rfl, id, fun t ht _ => ?_⟩
    rcases List.mem_append.mp ht with hqueue | hserving
    · exact List.mem_append_left _ (List.mem_of_mem_eraseIdx hqueue)
    · rcases List.mem_append.mp hserving with hold | hnew
      · exact List.mem_append_right _ hold
      · rw [List.mem_singleton.mp hnew]
        exact List.mem_append_left _ (List.mem_of_getElem? htask)
  | conclude i now =>
    obtain ⟨e, he, rfl⟩ := Option.map_eq_some_iff.mp hstep
    rw [RequestSystem.conclude]
    split_ifs
    · exact ⟨rfl, rfl, id, fun _ ht _ => ht⟩
    · exact ⟨rfl, rfl, id, fun _ ht _ => ht⟩
  | readRunMarker | readSize =>
    rw [RequestSystem.step] at hstep
    split at hstep
    · cases hstep
      exact ⟨rfl, rfl, id, fun _ ht _ => ht⟩
    · cases hstep
  | checkWaitingRequests clock =>
    rw [RequestSystem.step] at hstep
    split_ifs at hstep
    cases hstep
    refine ⟨rfl, rfl, id, fun t ht hretry => ?_⟩
    rcases List.mem_append.mp ht with hqueue | hserving
    · rcases List.mem_append.mp hqueue with hold | hposted
      · exact List.mem_append_left _ hold
      · -- what the waiting thread posts is a retry
        obtain ⟨tracked, _, rfl⟩ := List.mem_map.mp hposted
        cases hretry
    · exact List.mem_append_right _ hserving
  | joinWaitingThread =>
    rw [RequestSystem.step] at hstep
    split_ifs at hstep with hjoin
    cases hstep
    refine ⟨rfl, rfl, fun hstop => ?_, fun _ ht _ => ht⟩
    rw [hstop] at hjoin
    cases hjoin.1
  | joinPool =>
    rw [RequestSystem.step] at hstep
    split_ifs at hstep
    cases hstep
    exact ⟨rfl, rfl, fun _ => rfl, fun _ ht _ => ht⟩

end Threads

variable {conf} {s s' : RunSystem LB T}

section Isolation
variable [FlushedBuffer LB T]

structure Separated (s : RunSystem LB T) : Prop where
  joined : RequestSystem.Joined s.handler
  content : ∀ x, Holds s.handler.buffer x → (x, s.handler.currentRun) ∈ s.accepted
  consumer : s.phase.consumes = false → s.consumer = .ready
  handlerStopped : s.phase.served = true → s.handler.phase = .stopped
  flushing : ∀ n, s.flushLeft = some n →
    s.phase = .flushing ∧ FlushedBuffer.Counts n s.handler.buffer
  firstTries : ∀ task ∈ s.handler.poolQueue ++ s.handler.serving, task.isRetry = false →
    task.tracked.run = s.handler.currentRun
  isolated : RunIsolated s

omit [ReadoutType T] in
theorem separated_init {buffer : LB} (hempty : ∀ x, ¬Holds buffer x) :
    Separated (init buffer : RunSystem LB T) where
  joined := ⟨fun _ => rfl, fun _ => ⟨rfl, rfl, rfl⟩⟩
  content x hx := absurd hx (hempty x)
  consumer _ := rfl
  handlerStopped _ := rfl
  flushing _ hleft := by cases hleft
  firstTries _ ht := by cases ht
  isolated := by
    refine ⟨?_, ?_, fun _ => hempty⟩
    · intro _ h
      cases h
    · intro _ h
      cases h

omit [FlushedBuffer LB T] in
theorem element_of_mem_framesOf {lb : LB} {pieces : List Piece} {f : Frame T}
    (hf : f ∈ framesOf lb pieces) : Holds lb f.element := by
  obtain ⟨p, _, hp⟩ := List.mem_flatMap.mp hf
  rw [Piece.frames] at hp
  split at hp
  · next element helement =>
    obtain ⟨k, _, rfl⟩ := List.mem_map.mp hp
    exact ⟨p.iterator, helement⟩
  · cases hp

omit [ReadoutType T] in
theorem Separated.of_sameRun (h : Separated s) {handler : RequestSystem LB}
    (hjoined : RequestSystem.Joined handler) (hsame : SameRun s.handler handler) :
    Separated { s with handler := handler } where
  joined := hjoined
  content x hx := by
    rw [hsame.buffer] at hx
    rw [hsame.currentRun]
    exact h.content x hx
  consumer := h.consumer
  handlerStopped hphase := hsame.stopped (h.handlerStopped hphase)
  flushing n hleft := by
    rw [hsame.buffer]
    exact h.flushing n hleft
  firstTries task ht hretry := by
    rw [hsame.currentRun]
    exact h.firstTries task (hsame.firstTries task ht hretry) hretry
  isolated := ⟨h.isolated.frames, h.isolated.firstTry, fun hphase x hx =>
    h.isolated.flushed hphase x (hsame.buffer ▸ hx)⟩

omit [ReadoutType T] in
theorem Separated.advance (h : Separated s) {phase : RunPhase} {consumer : ConsumerThread}
    (runMarker : Bool) (hphase : phase = .stopped → s.phase = .stopped)
    (hflush : s.phase = .flushing → phase = .flushing)
    (hconsumer : phase.consumes = false → consumer = .ready)
    (hserved : phase.served = true → s.handler.phase = .stopped) :
    Separated { s with phase := phase, runMarker := runMarker, consumer := consumer } where
  joined := h.joined
  content := h.content
  consumer := hconsumer
  handlerStopped := hserved
  flushing n hleft := ⟨hflush (h.flushing n hleft).1, (h.flushing n hleft).2⟩
  firstTries := h.firstTries
  isolated := ⟨h.isolated.frames, h.isolated.firstTry, fun hp => h.isolated.flushed (hphase hp)⟩

omit [ReadoutType T] in
theorem Separated.flushLeft_eq_none (h : Separated s) (hphase : s.phase ≠ .flushing) :
    s.flushLeft = none :=
  Option.eq_none_iff_forall_not_mem.mpr fun n hleft => hphase (h.flushing n hleft).1

theorem Separated.doStart (h : Separated s) (hphase : s.phase = .stopped)
    (hs : stepHandler conf { s with phase := .settingConsumer, runMarker := true } .start =
      some s') : Separated s' := by
  obtain ⟨handler, hhandler, rfl⟩ := Option.map_eq_some_iff.mp hs
  have hstopped := h.handlerStopped (by rw [hphase]; rfl)
  have hleft := h.flushLeft_eq_none (by rw [hphase]; rintro ⟨⟩)
  have hjoined := h.joined.step hhandler
  rw [RequestSystem.step, if_pos hstopped] at hhandler
  cases hhandler
  exact {
    joined := hjoined
    content := fun x hx => absurd hx (h.isolated.flushed hphase x)
    consumer := fun _ => h.consumer (by rw [hphase]; rfl)
    handlerStopped := fun hp => by cases hp
    flushing := fun n hn => by cases hleft.symm.trans hn
    firstTries := fun task ht _ => by
      have hserving := (h.joined.drained hstopped).2.1
      have hmem : task ∈ s.handler.serving := ht
      rw [hserving] at hmem
      cases hmem
    isolated := ⟨h.isolated.frames, h.isolated.firstTry, fun hp => by cases hp⟩ }

omit [ReadoutType T] in
theorem Separated.store (h : Separated s) (payload : T)
    (hphase : s.phase ≠ .stopped ∧ s.phase ≠ .flushing) : Separated (s.store payload) where
  joined := ⟨h.joined.exited, h.joined.drained⟩
  content x hx := by
    rcases FlushedBuffer.holds_write hx with hold | ⟨haccepted, rfl⟩
    · have hmem := h.content x hold
      show (x, s.handler.currentRun) ∈ ite _ _ _
      split_ifs
      · exact List.mem_append_left _ hmem
      · exact hmem
    · show (x, s.handler.currentRun) ∈ ite _ _ _
      rw [if_pos haccepted]
      exact List.mem_append_right _ (List.mem_singleton_self _)
  consumer := h.consumer
  handlerStopped := h.handlerStopped
  flushing n hleft := absurd (h.flushing n hleft).1 hphase.2
  firstTries := h.firstTries
  isolated := by
    refine ⟨fun answer ha f hf => ?_, h.isolated.firstTry, fun hp => absurd hp hphase.1⟩
    have hmem := h.isolated.frames answer ha f hf
    show (f.element, answer.run) ∈ ite _ _ _
    split_ifs
    · exact List.mem_append_left _ hmem
    · exact hmem

theorem Separated.dataRequest (h : Separated s) {i : ℕ} {registry : FrameErrorRegistry}
    (hs : s.dataRequest conf i registry = some s') : Separated s' := by
  obtain ⟨task, htask, hs⟩ := Option.bind_eq_some_iff.mp hs
  obtain ⟨res, hres, hs⟩ := Option.bind_eq_some_iff.mp hs
  obtain ⟨s₁, hs₁, rfl⟩ := Option.map_eq_some_iff.mp hs
  obtain ⟨handler, hhandler, rfl⟩ := Option.map_eq_some_iff.mp hs₁
  have hjoined := h.joined.step hhandler
  have hfirst : task.isRetry = false → task.tracked.run = s.handler.currentRun :=
    h.firstTries task (List.mem_append_right _ (List.mem_of_getElem? htask))
  have hsame : SameRun s.handler handler := by
    rw [RequestSystem.step, htask, Option.bind_some] at hhandler
    split at hhandler
    · cases hhandler
      refine ⟨rfl, rfl, id, fun t ht _ => ?_⟩
      rcases List.mem_append.mp ht with hqueue | hserving
      · exact List.mem_append_left _ hqueue
      · exact List.mem_append_right _ (List.mem_of_mem_eraseIdx hserving)
    · cases hhandler
  have hnext := h.of_sameRun hjoined hsame
  refine ⟨hnext.joined, hnext.content, hnext.consumer, hnext.handlerStopped, hnext.flushing,
    hnext.firstTries, ?_, ?_, hnext.isolated.flushed⟩
  · intro answer ha f hf
    rcases List.mem_append.mp ha with hold | hnew
    · exact h.isolated.frames answer hold f hf
    · obtain rfl := List.mem_singleton.mp hnew
      exact h.content f.element (element_of_mem_framesOf hf)
  · intro answer ha hretry
    rcases List.mem_append.mp ha with hold | hnew
    · exact h.isolated.firstTry answer hold hretry
    · obtain rfl := List.mem_singleton.mp hnew
      exact hfirst hretry

omit [ReadoutType T] in
theorem Separated.flush (h : Separated s) (hphase : s.phase = .flushing)
    (hflushable : FlushedBuffer.Flushable s.handler.buffer) :
    Separated { s with flushLeft := some (occupancy s.handler.buffer) } where
  joined := h.joined
  content := h.content
  consumer := h.consumer
  handlerStopped := h.handlerStopped
  flushing _ hleft := by
    cases hleft
    exact ⟨hphase, FlushedBuffer.counts_occupancy hflushable⟩
  firstTries := h.firstTries
  isolated := ⟨h.isolated.frames, h.isolated.firstTry, h.isolated.flushed⟩

omit [ReadoutType T] in
theorem Separated.popOne (h : Separated s) {left : ℕ} {buffer : LB}
    (hleft : s.flushLeft = some (left + 1)) (hpop : pop 1 s.handler.buffer = some buffer) :
    Separated { s with
      flushLeft := some left, handler := { s.handler with buffer := buffer } } where
  joined := ⟨h.joined.exited, h.joined.drained⟩
  content x hx := h.content x (FlushedBuffer.holds_pop hpop hx)
  consumer := h.consumer
  handlerStopped := h.handlerStopped
  flushing _ hn := by
    cases hn
    obtain ⟨hphase, hcounts⟩ := h.flushing _ hleft
    exact ⟨hphase, FlushedBuffer.counts_pop hcounts hpop⟩
  firstTries := h.firstTries
  isolated := ⟨h.isolated.frames, h.isolated.firstTry, fun hp x hx =>
    h.isolated.flushed hp x (FlushedBuffer.holds_pop hpop hx)⟩

omit [ReadoutType T] in
theorem Separated.endFlush (h : Separated s) (hleft : s.flushLeft = some 0) :
    Separated { s with phase := .stopped, flushLeft := none } where
  joined := h.joined
  content := h.content
  consumer _ := h.consumer (by rw [(h.flushing 0 hleft).1]; rfl)
  handlerStopped _ := h.handlerStopped (by rw [(h.flushing 0 hleft).1]; rfl)
  flushing _ hn := by cases hn
  firstTries := h.firstTries
  isolated := ⟨h.isolated.frames, h.isolated.firstTry, fun _ _ =>
    FlushedBuffer.not_holds_of_counts (h.flushing 0 hleft).2⟩

theorem Separated.issueRequest (h : Separated s) {request : DataRequest}
    (hs : s.stepHandler conf (.issueRequest request) = some s') : Separated s' := by
  obtain ⟨handler, hhandler, rfl⟩ := Option.map_eq_some_iff.mp hs
  have hjoined := h.joined.step hhandler
  rw [RequestSystem.step] at hhandler
  split_ifs at hhandler with hphase
  cases hhandler
  refine ⟨hjoined, h.content, h.consumer, h.handlerStopped, h.flushing,
    fun task ht hretry => ?_, h.isolated.frames, h.isolated.firstTry, h.isolated.flushed⟩
  rcases List.mem_append.mp ht with hqueue | hserving
  · rcases List.mem_append.mp hqueue with hold | hnew
    · exact h.firstTries task (List.mem_append_left _ hold) hretry
    · rw [List.mem_singleton.mp hnew]
  · exact h.firstTries task (List.mem_append_right _ hserving) hretry

theorem Separated.cleanup (h : Separated s) {count : ℕ} (hrunning : s.handler.phase ≠ .stopped)
    (hs : s.stepHandler conf (.cleanup count) = some s') : Separated s' := by
  obtain ⟨handler, hhandler, rfl⟩ := Option.map_eq_some_iff.mp hs
  have hjoined := h.joined.step hhandler
  obtain ⟨buffer, hpop, rfl⟩ := Option.map_eq_some_iff.mp hhandler
  refine ⟨hjoined, fun x hx => h.content x (FlushedBuffer.holds_pop hpop hx), h.consumer,
    h.handlerStopped, fun n hleft => ?_, h.firstTries, h.isolated.frames, h.isolated.firstTry,
    fun hphase x hx => h.isolated.flushed hphase x (FlushedBuffer.holds_pop hpop hx)⟩
  -- no cleanup runs beside the flush
  have hphase := (h.flushing n hleft).1
  exact absurd (h.handlerStopped (by rw [hphase]; rfl)) hrunning

theorem Separated.doStop (h : Separated s) (hphase : s.phase = .running)
    (hs : stepHandler conf { s with phase := .joiningTimesync, runMarker := false } .stop =
      some s') : Separated s' := by
  obtain ⟨handler, hhandler, rfl⟩ := Option.map_eq_some_iff.mp hs
  have hleft := h.flushLeft_eq_none (by rw [hphase]; rintro ⟨⟩)
  have hjoined := h.joined.step hhandler
  rw [RequestSystem.step] at hhandler
  split_ifs at hhandler
  cases hhandler
  refine ⟨hjoined, h.content, ?_, ?_, ?_, h.firstTries, h.isolated.frames, h.isolated.firstTry, ?_⟩
  · intro hp
    cases hp
  · intro hp
    cases hp
  · intro n hn
    cases hleft.symm.trans hn
  · intro hp
    cases hp

theorem Separated.step {a : RunAction T} (h : Separated s)
    (hruns : PayloadsInRuns s a) (hstep : step conf s a = some s') : Separated s' := by
  cases a with
  | doStart =>
    rw [RunSystem.step] at hstep
    split_ifs at hstep with hphase
    exact h.doStart hphase hstep
  | setConsumerWork =>
    rw [RunSystem.step] at hstep
    split at hstep
    · next hphase =>
      cases hstep
      exact h.advance s.runMarker (by simp) (by simp [hphase]) (by simp [RunPhase.consumes])
        (by simp [RunPhase.served])
    · cases hstep
  | addCallback =>
    rw [RunSystem.step] at hstep
    split_ifs at hstep with hphase
    cases hstep
    exact h.advance s.runMarker (by simp) (by simp [hphase]) (by simp [RunPhase.consumes])
      (by simp [RunPhase.served])
  | doStop =>
    rw [RunSystem.step] at hstep
    split_ifs at hstep with hphase
    exact h.doStop hphase hstep
  | joinRequestHandler =>
    rw [RunSystem.step] at hstep
    split_ifs at hstep with hjoin
    cases hstep
    exact h.advance s.runMarker (by simp) (by simp [hjoin.1]) (by simp [RunPhase.consumes])
      fun _ => hjoin.2
  | joinConsumer =>
    rw [RunSystem.step] at hstep
    split_ifs at hstep with hjoin
    cases hstep
    exact h.advance s.runMarker (by simp) (fun _ => rfl) (fun _ => hjoin.2)
      fun _ => h.handlerStopped (by rw [hjoin.1]; rfl)
  | flush =>
    rw [RunSystem.step] at hstep
    split_ifs at hstep with hphase
    cases hstep
    exact h.flush hphase.1 hruns
  | popOne =>
    rw [RunSystem.step] at hstep
    split at hstep
    · next left hleft =>
      obtain ⟨buffer, hpop, rfl⟩ := Option.map_eq_some_iff.mp hstep
      exact h.popOne hleft hpop
    · cases hstep
  | endFlush =>
    rw [RunSystem.step] at hstep
    split_ifs at hstep with hleft
    cases hstep
    exact h.endFlush hleft
  | readRunMarker | endPass =>
    rw [RunSystem.step] at hstep
    split at hstep
    · next hthread =>
      cases hstep
      refine h.advance s.runMarker id id (fun hp => ?_) h.handlerStopped
      rw [h.consumer hp] at hthread
      cases hthread
    · cases hstep
  | processItem payload =>
    rw [RunSystem.step] at hstep
    split_ifs at hstep with hthread
    cases hstep
    refine h.store payload ⟨fun hphase => ?_, fun hphase => ?_⟩
    all_goals
      rw [h.consumer (by rw [hphase]; rfl)] at hthread
      cases hthread
  | consumePayload payload =>
    rw [RunSystem.step] at hstep
    split_ifs at hstep
    cases hstep
    exact h.store payload hruns
  | issueRequest request =>
    rw [RunSystem.step] at hstep
    split_ifs at hstep
    exact h.issueRequest hstep
  | dataRequest i registry => exact h.dataRequest hstep
  | handlerThread a =>
    rw [RunSystem.step] at hstep
    split_ifs at hstep with hthread
    obtain ⟨handler, hhandler, rfl⟩ := Option.map_eq_some_iff.mp hstep
    exact h.of_sameRun (h.joined.step hhandler) (sameRun_of_ofThread hthread hhandler)
  | cleanup count =>
    rw [RunSystem.step] at hstep
    split_ifs at hstep with hrunning
    refine h.cleanup (fun hstopped => ?_) hstep
    rw [hstopped] at hrunning
    rcases hrunning with hp | hp <;> cases hp

/-- Whatever the commands, the threads and the callback do, as long as no payload comes in while no
run is on and the flushes find what they can count. -/
theorem run_isolated {buffer : LB} (hempty : ∀ x : T, ¬Holds buffer x)
    {as : List (RunAction T)} {t : RunSystem LB T}
    (hruns : Execution.StepsMeet (RunSystem.step conf) PayloadsInRuns (init buffer) as)
    (hrun : Execution.run (RunSystem.step conf) (init buffer) as = some t) : RunIsolated t :=
  (Execution.run_invariant_of_stepsMeet (fun _ _ _ h hruns => h.step hruns)
    (separated_init hempty) hruns hrun).isolated

end Isolation

/-- No payload comes in by the callback while no run is on, nor during the flush. -/
def CallbacksInRuns (s : RunSystem LB T) : RunAction T → Prop
  | .consumePayload _ => s.phase ≠ .stopped ∧ s.phase ≠ .flushing
  | _ => True

instance (s : RunSystem LB T) : (a : RunAction T) → Decidable (CallbacksInRuns s a)
  | .consumePayload _ => inferInstanceAs (Decidable (s.phase ≠ .stopped ∧ s.phase ≠ .flushing))
  | .doStart | .setConsumerWork | .addCallback | .doStop | .joinRequestHandler | .joinConsumer
  | .flush | .popOne | .endFlush | .readRunMarker | .processItem _ | .endPass | .issueRequest _
  | .dataRequest _ _ | .handlerThread _ | .cleanup _ => isTrue trivial

inductive BufferStep (lb : LB) : LB → Prop where
  | same : BufferStep lb lb
  | write (payload : T) : BufferStep lb (write lb payload).2
  | pop {n : ℕ} {lb' : LB} (hpop : pop n lb = some lb') : BufferStep lb lb'

theorem bufferStep_handler {handlerConf : HandlerConf LB} {h h' : RequestSystem LB}
    {a : RequestAction T} (hstep : RequestSystem.step handlerConf h a = some h') :
    BufferStep h.buffer h'.buffer := by
  cases a with
  | start | issueRequest | stop =>
    rw [RequestSystem.step] at hstep
    split at hstep
    · cases hstep
      exact .same
    · cases hstep
  | evaluate i code =>
    obtain ⟨task, _, hstep⟩ := Option.bind_eq_some_iff.mp hstep
    split at hstep
    · cases hstep
      exact .same
    · cases hstep
  | write payload =>
    cases hstep
    exact .write payload
  | cleanup count =>
    obtain ⟨buffer, hpop, rfl⟩ := Option.map_eq_some_iff.mp hstep
    exact .pop hpop
  | take | conclude | readRunMarker | readSize | checkWaitingRequests | joinWaitingThread
  | joinPool =>
    rw [(sameRun_of_ofThread rfl hstep).buffer]
    exact .same

theorem bufferStep_stepHandler {a : RequestAction T} (hs : s.stepHandler conf a = some s') :
    BufferStep s.handler.buffer s'.handler.buffer := by
  obtain ⟨handler, hhandler, rfl⟩ := Option.map_eq_some_iff.mp hs
  exact bufferStep_handler hhandler

theorem bufferStep_step {a : RunAction T} (hstep : RunSystem.step conf s a = some s') :
    BufferStep s.handler.buffer s'.handler.buffer := by
  cases a with
  | doStart | doStop =>
    rw [RunSystem.step] at hstep
    split_ifs at hstep
    obtain ⟨handler, hhandler, rfl⟩ := Option.map_eq_some_iff.mp hstep
    exact bufferStep_handler hhandler
  | issueRequest | handlerThread | cleanup =>
    rw [RunSystem.step] at hstep
    split_ifs at hstep
    exact bufferStep_stepHandler hstep
  | dataRequest i registry =>
    obtain ⟨task, _, hstep⟩ := Option.bind_eq_some_iff.mp hstep
    obtain ⟨res, _, hstep⟩ := Option.bind_eq_some_iff.mp hstep
    obtain ⟨s₁, hs₁, rfl⟩ := Option.map_eq_some_iff.mp hstep
    exact (bufferStep_stepHandler hs₁ : BufferStep s.handler.buffer s₁.handler.buffer)
  | popOne =>
    rw [RunSystem.step] at hstep
    split at hstep
    · obtain ⟨buffer, hpop, rfl⟩ := Option.map_eq_some_iff.mp hstep
      exact .pop hpop
    · cases hstep
  | processItem payload | consumePayload payload =>
    rw [RunSystem.step] at hstep
    split_ifs at hstep
    cases hstep
    exact .write payload
  | setConsumerWork | addCallback | joinRequestHandler | joinConsumer | flush | endFlush
  | readRunMarker | endPass =>
    rw [RunSystem.step] at hstep
    split at hstep
    · cases hstep
      exact .same
    · cases hstep

section Ring
variable [RingBuffer LB T]

omit [ReadoutType T] in
theorem BufferStep.flushable {lb lb' : LB} (h : BufferStep lb lb')
    (hflushable : FlushedBuffer.Flushable lb) : FlushedBuffer.Flushable lb' := by
  obtain ⟨hsize, xs, hrep⟩ := hflushable
  cases h with
  | same => exact ⟨hsize, xs, hrep⟩
  | write payload =>
    have hqueue := RingBuffer.write_snd lb payload
    refine ⟨?_, ?_⟩
    · rwa [hqueue, size_write]
    · rw [hqueue]
      exact hrep.exists_write payload
  | @pop n _ hpop =>
    have hqueue := RingBuffer.pop_eq lb n
    rw [hpop, Option.map_some] at hqueue
    rcases Nat.lt_or_ge xs.length n with hlt | hle
    · rw [hrep.pop_of_lt hlt] at hqueue
      cases hqueue
    · obtain ⟨q', hq', hrep', hsize'⟩ := hrep.pop_of_le hle
      rw [hq'] at hqueue
      rw [← Option.some.inj hqueue] at hrep' hsize'
      exact ⟨by rwa [hsize'], _, hrep'⟩

theorem payloadsInRuns_of_ring {buffer : LB} (hflushable : FlushedBuffer.Flushable buffer)
    {as : List (RunAction T)}
    (h : Execution.StepsMeet (RunSystem.step conf) CallbacksInRuns (init buffer) as) :
    Execution.StepsMeet (RunSystem.step conf) PayloadsInRuns (init buffer) as := by
  refine h.mono_of_invariant
    (I := fun s : RunSystem LB T => FlushedBuffer.Flushable s.handler.buffer) ?_ ?_ hflushable
  · intro s a s' hs hstep
    exact (bufferStep_step hstep).flushable hs
  · intro s a hs hcallbacks
    cases a with
    | consumePayload payload => exact hcallbacks
    | flush => exact hs
    | doStart | setConsumerWork | addCallback | doStop | joinRequestHandler | joinConsumer
    | popOne | endFlush | readRunMarker | processItem | endPass | issueRequest | dataRequest
    | handlerThread | cleanup => trivial

end Ring

open RequestSystem (windowRequest emptyRing)

def pollingRunConf : RunConf := ⟨false, 1000, ⟨0, 0, (0, 0)⟩, 10⟩

/-- The threads are joined after a `doStop`, and the buffer is flushed. -/
def stopActions (occupancy : ℕ) : List (RunAction (Chunk 1 10)) :=
  [.doStop, .readRunMarker, .handlerThread .readRunMarker, .handlerThread .joinWaitingThread,
    .handlerThread .joinPool, .joinRequestHandler, .joinConsumer, .flush] ++
  List.replicate occupancy .popOne ++ [.endFlush]

def carriedOverActions : List (RunAction (Chunk 1 10)) :=
  [.doStart, .setConsumerWork, .addCallback, .readRunMarker, .processItem ⟨100⟩, .endPass,
    .issueRequest (windowRequest 115 200), .handlerThread (.take 0), .dataRequest 0 .empty,
    .handlerThread (.conclude 0 0)] ++ stopActions 1 ++
  [.doStart, .setConsumerWork, .addCallback, .readRunMarker, .processItem ⟨100⟩,
    .processItem ⟨110⟩, .processItem ⟨300⟩, .endPass, .handlerThread .readRunMarker,
    .handlerThread .readSize,
    .handlerThread (.checkWaitingRequests fun _ => 0), .handlerThread (.take 0),
    .dataRequest 0 .empty, .handlerThread (.conclude 0 0)] ++ stopActions 3

theorem run_isolated_carriedOver : RunIsolated
    ((Execution.run (RunSystem.step pollingRunConf) (init emptyRing) carriedOverActions).get
      (by decide +kernel)) :=
  run_isolated (fun _ ⟨_, h⟩ => by cases h)
    (payloadsInRuns_of_ring
      ⟨by decide, [], IterableQueueModel.represents_fresh (by decide) (by decide)⟩
      (Execution.stepsMeet_of_checkSteps (fun _ _ => of_decide_eq_true)
        (by decide +kernel :
          Execution.checkSteps (RunSystem.step pollingRunConf)
            (fun s a => decide (CallbacksInRuns s a)) (init emptyRing) carriedOverActions = true)))
    (Option.some_get _).symm

end RunSystem
end DataHandling

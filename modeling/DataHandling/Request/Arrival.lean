import DataHandling.Buffer.RingBuffers
import DataHandling.Request.Accounting

/-! What becomes of a request that was put off, over a ring whose payloads come in order: once data
past its window have arrived it is retried, and the retry finds them or finds that they are gone.
Only a request that has waited until its timeout is answered with data missing at its end. -/

namespace DataHandling
open LatencyBuffer ReadoutType

/-- An evaluation misses the end of a window only if the newest element is not past it. -/
def HandlerConf.MissesUnarrived {T LB : Type} [ReadoutType T] [LatencyBuffer LB T]
    (conf : HandlerConf LB) : Prop :=
  ∀ (lb : LB) (request : DataRequest) code, request.windowBegin ≤ request.windowEnd →
    conf.mayReturn lb request code = true → code.isDelayed = true →
      ∃ newest, back lb = some newest ∧ getTimestamp newest ≤ request.windowEnd

/-- The handler, with the payloads that its ring accepted and the requests that were retried
without data past their window. -/
structure ArrivalSystem (LB T : Type) where
  handler : RequestSystem LB
  accepted : List T
  overdue : List TrackedRequest

namespace ArrivalSystem
open RequestSystem

variable {T LB : Type} [ReadoutType T] [LatencyBuffer LB T]

def init (buffer : LB) : ArrivalSystem LB T := ⟨.init buffer, [], []⟩

def stored (s : RequestSystem LB) : RequestAction T → List T
  | .write payload => if (write s.buffer payload).1 then [payload] else []
  | _ => []

def step (conf : HandlerConf LB) (s : ArrivalSystem LB T) (a : RequestAction T) :
    Option (ArrivalSystem LB T) :=
  (RequestSystem.step conf s.handler a).map fun handler =>
    ⟨handler, s.accepted ++ stored s.handler a,
      s.overdue ++ AccountedSystem.timeouts conf s.handler a⟩

/-- Payloads are stored in the order of their timestamps, and a window begins before it ends. -/
def Orderly (s : ArrivalSystem LB T) : RequestAction T → Prop
  | .write payload => ∀ last ∈ s.accepted.getLast?, getTimestamp last ≤ getTimestamp payload
  | .issueRequest request => request.windowBegin ≤ request.windowEnd
  | _ => True

instance (s : ArrivalSystem LB T) : (a : RequestAction T) → Decidable (Orderly s a)
  | .write payload =>
    inferInstanceAs (Decidable (∀ last ∈ s.accepted.getLast?,
      getTimestamp last ≤ getTimestamp payload))
  | .issueRequest request => inferInstanceAs (Decidable (request.windowBegin ≤ request.windowEnd))
  | .start | .take _ | .evaluate _ _ | .conclude _ _ | .readRunMarker | .readSize
  | .checkWaitingRequests _ | .stop | .joinWaitingThread | .joinPool | .cleanup _ => isTrue trivial

def Arrived (accepted : List T) (request : DataRequest) : Prop :=
  ∃ x ∈ accepted, request.windowEnd < getTimestamp x

/-- A retry that found no data yet, or data up to somewhere in its window, is of a request that
was overdue; so is an answer without the end of its window, unless requests do not wait at all. -/
structure RetriesConclusive (conf : HandlerConf LB) (s : ArrivalSystem LB T) : Prop where
  retry : ∀ e ∈ s.handler.evaluations, e.1.task.isRetry = true → e.1.code.isDelayed = true →
    e.1.task.tracked ∈ s.overdue
  answer : 0 < conf.requestTimeoutMs → ∀ e ∈ s.handler.evaluations, e.1.code.isDelayed = true →
    requeues conf e.1 = true ∨ e.1.task.tracked ∈ s.overdue

section Extraction
variable {lb : LB} {registry : FrameErrorRegistry} {source : FragmentSource} {fuel : ℕ}
  {stats stats' : RequestStats} {dr : DataRequest} {result : RequestResult}

theorem windowCode_isDelayed {first last b e : UInt64}
    (h : (windowCode first last b e).isDelayed = true) : last ≤ e := by
  rw [windowCode] at h
  split_ifs at h with hpartial
  · exact UInt64.le_of_lt hpartial
  · cases h
  · cases h

theorem newest_le_of_isDelayed (hwindow : dr.windowBegin ≤ dr.windowEnd)
    (hres : dataRequest lb registry source fuel stats dr = some (result, stats'))
    (hcode : result.resultCode.isDelayed = true) :
    ∃ newest, back lb = some newest ∧ getTimestamp newest ≤ dr.windowEnd := by
  rw [dataRequest] at hres
  split_ifs at hres with hempty
  · cases hres
    cases hcode
  obtain ⟨⟨code, pieces⟩, hpieces, hres⟩ := Option.bind_eq_some_iff.mp hres
  obtain ⟨first', _, hres⟩ := Option.bind_eq_some_iff.mp hres
  obtain ⟨last', _, hres⟩ := Option.map_eq_some_iff.mp hres
  cases hres
  rw [getFragmentPieces] at hpieces
  obtain ⟨first, hfirst, hpieces⟩ := Option.bind_eq_some_iff.mp hpieces
  obtain ⟨newest, hnewest, hpieces⟩ := Option.bind_eq_some_iff.mp hpieces
  refine ⟨newest, hnewest, ?_⟩
  split_ifs at hpieces with hearly hlate
  · exact UInt64.le_trans (UInt64.le_of_lt hearly) hwindow
  · cases hpieces
    cases hcode
  · obtain ⟨it, _, hpieces⟩ := Option.bind_eq_some_iff.mp hpieces
    split_ifs at hpieces
    · obtain ⟨ps, _, heq⟩ := Option.map_eq_some_iff.mp hpieces
      cases heq
      exact windowCode_isDelayed hcode
    · cases hpieces
      cases hcode

theorem atomic_missesUnarrived (registry : FrameErrorRegistry) (source : FragmentSource)
    (fuel : ℕ) (requestTimeoutMs : ℤ) :
    HandlerConf.MissesUnarrived
      (.atomic registry source fuel requestTimeoutMs : HandlerConf LB) := by
  intro lb request code hwindow hreturn hdelayed
  obtain ⟨⟨result, stats⟩, hres, hcode⟩ := Option.map_eq_some_iff.mp (beq_iff_eq.mp hreturn)
  refine newest_le_of_isDelayed hwindow hres ?_
  rw [show result.resultCode = code from hcode]
  exact hdelayed

end Extraction

variable [RingBuffer LB T] {conf : HandlerConf LB} {s s' : ArrivalSystem LB T}

/-- What is known of a task on its way to its evaluation. -/
structure Due (accepted : List T) (overdue : List TrackedRequest) (t : PoolTask) : Prop where
  window : t.tracked.request.windowBegin ≤ t.tracked.request.windowEnd
  retry : t.isRetry = true → t.tracked ∈ overdue ∨ Arrived accepted t.tracked.request

structure Arriving (s : ArrivalSystem LB T) : Prop where
  joined : Joined s.handler
  content : IterableQueueModel.HoldsNewestOf (RingBuffer.queue s.handler.buffer) s.accepted
  sorted : s.accepted.Pairwise fun x y => tsNat x ≤ tsNat y
  posted : ∀ t ∈ s.handler.poolQueue, Due s.accepted s.overdue t
  serving : ∀ t ∈ s.handler.serving, Due s.accepted s.overdue t
  concluding : ∀ e ∈ s.handler.concluding,
    e.task.tracked.request.windowBegin ≤ e.task.tracked.request.windowEnd
  waiting : ∀ r ∈ s.handler.waitingRequests,
    r.tracked.request.windowBegin ≤ r.tracked.request.windowEnd
  evaluated : ∀ e ∈ s.handler.evaluations, e.1.task.isRetry = true → e.1.code.isDelayed = true →
    e.1.task.tracked ∈ s.overdue

theorem Due.mono {accepted accepted' : List T} {overdue overdue' : List TrackedRequest}
    {t : PoolTask} (h : Due accepted overdue t) (haccepted : accepted ⊆ accepted')
    (hoverdue : overdue ⊆ overdue') : Due accepted' overdue' t where
  window := h.window
  retry := by
    intro hretry
    rcases h.retry hretry with hmem | ⟨x, hx, hlt⟩
    · exact .inl (hoverdue hmem)
    · exact .inr ⟨x, haccepted hx, hlt⟩

section Newest
variable {q : IterableQueueModel T} {accepted : List T}

omit [ReadoutType T] in
theorem getLast?_of_newest {lb : LB} {newest : T}
    (h : IterableQueueModel.HoldsNewestOf (RingBuffer.queue lb) accepted)
    (hback : back lb = some newest) : accepted.getLast? = some newest := by
  obtain ⟨xs, hrep, before, rfl⟩ := h
  have hstores : BufferView.Stores lb xs := hrep
  have hlast : xs.getLast? = some newest := BufferView.back_sound hstores hback
  rw [List.getLast?_append, hlast, Option.some_or]

theorem windowEnd_lt_newest {lb : LB} {newest : T} {request : DataRequest}
    (h : IterableQueueModel.HoldsNewestOf (RingBuffer.queue lb) accepted)
    (hsorted : accepted.Pairwise fun x y => tsNat x ≤ tsNat y) (hback : back lb = some newest)
    (harrived : Arrived accepted request) : request.windowEnd < getTimestamp newest := by
  obtain ⟨x, hx, hlt⟩ := harrived
  have hle : getTimestamp x ≤ getTimestamp newest :=
    Ordered.le_getLast_of_pairwise hsorted (getLast?_of_newest h hback) x hx
  exact UInt64.lt_of_lt_of_le hlt hle

omit [ReadoutType T] in
theorem holdsNewestOf_pop {q q' : IterableQueueModel T} {accepted : List T} {count : ℕ}
    (h : IterableQueueModel.HoldsNewestOf q accepted)
    (hpop : IterableQueueModel.pop count q = some q') :
    IterableQueueModel.HoldsNewestOf q' accepted := by
  induction count generalizing q with
  | zero =>
    cases hpop
    exact h
  | succ count ih =>
    obtain ⟨r, hr, hrest⟩ := Option.bind_eq_some_iff.mp hpop
    have hone : IterableQueueModel.pop 1 q = some r := by
      rw [IterableQueueModel.pop, hr]
      rfl
    exact ih (h.pop hone) hrest

end Newest

theorem Arriving.of_handler (h : Arriving s) {handler : RequestSystem LB} (hjoined : Joined handler)
    (hcontent : IterableQueueModel.HoldsNewestOf (RingBuffer.queue handler.buffer) s.accepted)
    (hposted : ∀ t ∈ handler.poolQueue, Due s.accepted s.overdue t)
    (hserving : ∀ t ∈ handler.serving, Due s.accepted s.overdue t)
    (hconcluding : ∀ e ∈ handler.concluding,
      e.task.tracked.request.windowBegin ≤ e.task.tracked.request.windowEnd)
    (hwaiting : ∀ r ∈ handler.waitingRequests,
      r.tracked.request.windowBegin ≤ r.tracked.request.windowEnd)
    (hevaluated : ∀ e ∈ handler.evaluations, e.1.task.isRetry = true →
      e.1.code.isDelayed = true → e.1.task.tracked ∈ s.overdue) :
    Arriving ⟨handler, s.accepted ++ [], s.overdue ++ []⟩ := by
  rw [List.append_nil, List.append_nil]
  exact ⟨hjoined, hcontent, h.sorted, hposted, hserving, hconcluding, hwaiting, hevaluated⟩

section Steps
variable {i : ℕ} {code : ResultCode} {handler : RequestSystem LB}

theorem Arriving.evaluate (hconf : conf.MissesUnarrived) (h : Arriving s)
    (hjoined : Joined handler)
    (hstep : RequestSystem.step conf s.handler (.evaluate i code : RequestAction T) =
      some handler) :
    Arriving ⟨handler, s.accepted ++ [], s.overdue ++ []⟩ := by
  obtain ⟨task, htask, hstep⟩ := Option.bind_eq_some_iff.mp hstep
  split_ifs at hstep with hreturn
  cases hstep
  have hdue := h.serving task (List.mem_of_getElem? htask)
  refine h.of_handler hjoined h.content h.posted (forall_mem_eraseIdx h.serving i)
    (forall_mem_concat h.concluding hdue.window) h.waiting ?_
  apply forall_mem_concat h.evaluated
  intro hretry hdelayed
  obtain ⟨newest, hback, hle⟩ := hconf _ _ _ hdue.window hreturn hdelayed
  rcases hdue.retry hretry with hmem | harrived
  · exact hmem
  · have hlt := windowEnd_lt_newest h.content h.sorted hback harrived
    exact absurd (UInt64.lt_of_lt_of_le hlt hle) (UInt64.lt_irrefl _)

omit [RingBuffer LB T] in
theorem mem_notArrived_or (newest : UInt64) {ts : List TrackedRequest} {t : TrackedRequest}
    (ht : t ∈ ts) : t ∈ AccountedSystem.notArrived newest ts ∨ t.request.windowEnd < newest := by
  by_cases hlt : t.request.windowEnd < newest
  · exact .inr hlt
  · refine .inl (List.mem_filter.mpr ⟨ht, ?_⟩)
    rw [decide_eq_false hlt, Bool.not_false]

theorem arrived_of_lt_newestTs {lb : LB} {accepted : List T} {request : DataRequest}
    (h : IterableQueueModel.HoldsNewestOf (RingBuffer.queue lb) accepted)
    (hlt : request.windowEnd < newestTs lb) : Arrived accepted request := by
  unfold newestTs at hlt
  cases hback : back lb with
  | none =>
    rw [hback] at hlt
    exact absurd hlt (UInt64.not_lt.mpr UInt64.zero_le)
  | some newest =>
    rw [hback] at hlt
    exact ⟨newest, List.mem_of_getLast? (getLast?_of_newest h hback), hlt⟩

theorem Arriving.checkWaitingRequests {clock : ℕ → ℤ} (h : Arriving s) (hjoined : Joined handler)
    (hstep : RequestSystem.step conf s.handler (.checkWaitingRequests clock : RequestAction T) =
      some handler) :
    Arriving ⟨handler, s.accepted ++ [],
      s.overdue ++ AccountedSystem.timeouts conf s.handler
        (.checkWaitingRequests clock : RequestAction T)⟩ := by
  simp only [RequestSystem.step] at hstep
  split_ifs at hstep
  cases hstep
  have hsubset : ∀ us : List TrackedRequest, s.overdue ⊆ s.overdue ++ us := fun us =>
    List.subset_append_left _ us
  have hsame : s.accepted ⊆ s.accepted ++ [] := List.subset_append_left _ _
  refine ⟨hjoined, ?_, ?_, fun t ht => ?_, fun t ht => (h.serving t ht).mono hsame (hsubset _),
    h.concluding, fun r hr => ?_, fun e he hretry hdelayed =>
      hsubset _ (h.evaluated e he hretry hdelayed)⟩
  · rw [List.append_nil]
    exact h.content
  · rw [List.append_nil]
    exact h.sorted
  · rcases List.mem_append.mp ht with hold | hnew
    · exact (h.posted t hold).mono hsame (hsubset _)
    · obtain ⟨tracked, htracked, rfl⟩ := List.mem_map.mp hnew
      obtain ⟨r, hr, rfl⟩ := checkEntries_retried_subset _ _ _ _ _ tracked htracked
      refine ⟨h.waiting r hr, fun _ => ?_⟩
      rcases mem_notArrived_or (newestTs s.handler.buffer) htracked with hmem | hlt
      · exact .inl (List.mem_append_right _ hmem)
      · rw [List.append_nil]
        exact .inr (arrived_of_lt_newestTs h.content hlt)
  · exact h.waiting r (checkEntries_kept_subset _ _ _ _ _ r hr)

theorem Arriving.write {payload : T} (h : Arriving s)
    (horderly : ∀ last ∈ s.accepted.getLast?, getTimestamp last ≤ getTimestamp payload) :
    Arriving ⟨{ s.handler with buffer := (LatencyBuffer.write s.handler.buffer payload).2 },
      s.accepted ++ stored s.handler (.write payload), s.overdue ++ []⟩ := by
  rw [List.append_nil]
  have hqueue := RingBuffer.write_snd s.handler.buffer payload
  have hfst := RingBuffer.write_fst s.handler.buffer payload
  have hsubset : s.accepted ⊆ s.accepted ++ stored s.handler (.write payload) :=
    List.subset_append_left _ _
  refine ⟨⟨h.joined.exited, h.joined.drained⟩, ?_, ?_,
    fun t ht => (h.posted t ht).mono hsubset (List.Subset.refl _),
    fun t ht => (h.serving t ht).mono hsubset (List.Subset.refl _), h.concluding, h.waiting,
    h.evaluated⟩
  · simp only [stored, hqueue, hfst]
    split_ifs with hwrite
    · exact h.content.write_accepted payload hwrite
    · rw [List.append_nil]
      exact h.content.write_rejected payload (Bool.eq_false_iff.mpr hwrite)
  · simp only [stored]
    split_ifs
    · rw [List.pairwise_append]
      refine ⟨h.sorted, List.pairwise_singleton _ _, fun x hx y hy => ?_⟩
      rw [List.mem_singleton.mp hy]
      cases hlast : s.accepted.getLast? with
      | none =>
        rw [List.getLast?_eq_none_iff.mp hlast] at hx
        cases hx
      | some last =>
        have hle : tsNat last ≤ tsNat payload := horderly last hlast
        exact (Ordered.le_getLast_of_pairwise h.sorted hlast x hx).trans hle
    · rw [List.append_nil]
      exact h.sorted

end Steps

theorem conclude_flow (conf : HandlerConf LB) (e : EvaluatedTask) (now : ℤ)
    (t : RequestSystem LB) :
    (conclude conf e now t).buffer = t.buffer ∧
      (conclude conf e now t).poolQueue = t.poolQueue ∧
      (conclude conf e now t).serving = t.serving ∧
      ∀ r ∈ (conclude conf e now t).waitingRequests,
        r ∈ t.waitingRequests ∨ r.tracked = e.task.tracked := by
  unfold conclude
  split_ifs
  · refine ⟨rfl, rfl, rfl, fun r hr => ?_⟩
    rcases List.mem_append.mp hr with hold | hnew
    · exact .inl hold
    · rw [List.mem_singleton.mp hnew]
      exact .inr rfl
  · exact ⟨rfl, rfl, rfl, fun r hr => .inl hr⟩

theorem Arriving.conclude {i : ℕ} {now : ℤ} {handler : RequestSystem LB} (h : Arriving s)
    (hjoined : Joined handler)
    (hstep : RequestSystem.step conf s.handler (.conclude i now : RequestAction T) =
      some handler) :
    Arriving ⟨handler, s.accepted ++ [], s.overdue ++ []⟩ := by
  obtain ⟨e, he, rfl⟩ := Option.map_eq_some_iff.mp hstep
  obtain ⟨heval, _, hconcluding, _⟩ := AccountedSystem.conclude_spec conf e now
    { s.handler with concluding := s.handler.concluding.eraseIdx i }
  obtain ⟨hbuffer, hpool, hserving, hwaiting⟩ := conclude_flow conf e now
    { s.handler with concluding := s.handler.concluding.eraseIdx i }
  refine h.of_handler hjoined ?_ ?_ ?_ ?_ ?_ ?_
  · rw [hbuffer]
    exact h.content
  · rw [hpool]
    exact h.posted
  · rw [hserving]
    exact h.serving
  · rw [hconcluding]
    exact forall_mem_eraseIdx h.concluding i
  · intro r hr
    rcases hwaiting r hr with hold | hnew
    · exact h.waiting r hold
    · rw [hnew]
      exact h.concluding e (List.mem_of_getElem? he)
  · rw [heval]
    exact h.evaluated

theorem Arriving.step {a : RequestAction T} (hconf : conf.MissesUnarrived) (h : Arriving s)
    (horderly : Orderly s a) (hstep : ArrivalSystem.step conf s a = some s') : Arriving s' := by
  obtain ⟨handler, hhandler, rfl⟩ := Option.map_eq_some_iff.mp hstep
  have hjoined := h.joined.step hhandler
  cases a with
  | evaluate i code => exact h.evaluate hconf hjoined hhandler
  | conclude i now => exact h.conclude hjoined hhandler
  | checkWaitingRequests clock => exact h.checkWaitingRequests hjoined hhandler
  | write payload =>
    cases hhandler
    exact h.write horderly
  | cleanup count =>
    obtain ⟨buffer, hpop, rfl⟩ := Option.map_eq_some_iff.mp hhandler
    have hqueue := RingBuffer.pop_eq s.handler.buffer count
    rw [hpop, Option.map_some] at hqueue
    exact h.of_handler hjoined (holdsNewestOf_pop h.content hqueue.symm) h.posted h.serving
      h.concluding h.waiting h.evaluated
  | start =>
    simp only [RequestSystem.step] at hhandler
    split_ifs at hhandler
    cases hhandler
    refine h.of_handler hjoined h.content ?_ h.serving h.concluding h.waiting h.evaluated
    intro t ht
    cases ht
  | issueRequest request =>
    simp only [RequestSystem.step] at hhandler
    split_ifs at hhandler
    cases hhandler
    refine h.of_handler hjoined h.content ?_ h.serving h.concluding h.waiting h.evaluated
    apply forall_mem_concat h.posted
    refine ⟨horderly, fun hretry => ?_⟩
    cases hretry
  | take i =>
    obtain ⟨task, htask, rfl⟩ := Option.map_eq_some_iff.mp hhandler
    exact h.of_handler hjoined h.content (forall_mem_eraseIdx h.posted i)
      (forall_mem_concat h.serving (h.posted task (List.mem_of_getElem? htask))) h.concluding
      h.waiting h.evaluated
  | readRunMarker | readSize | stop | joinWaitingThread | joinPool =>
    simp only [RequestSystem.step] at hhandler
    split_ifs at hhandler
    all_goals
      cases hhandler
      exact h.of_handler hjoined h.content h.posted h.serving h.concluding h.waiting h.evaluated

theorem Arriving.retriesConclusive (h : Arriving s) : RetriesConclusive conf s where
  retry := h.evaluated
  answer := by
    intro htimeout e he hdelayed
    cases hretry : e.1.task.isRetry with
    | true => exact .inr (h.evaluated e he hretry hdelayed)
    | false =>
      refine .inl ?_
      rw [requeues, hdelayed, decide_eq_true htimeout, hretry]
      rfl

/-- In every run over a ring of ordered payloads, only requests that timed out are answered with
data missing at their end. -/
theorem run_retriesConclusive (conf : HandlerConf LB) (hconf : conf.MissesUnarrived)
    (buffer : LB) (hempty : IterableQueueModel.Represents (RingBuffer.queue buffer) [])
    (as : List (RequestAction T)) (s : ArrivalSystem LB T)
    (horderly : Execution.StepsMeet (ArrivalSystem.step conf) Orderly (init buffer) as)
    (hrun : Execution.run (ArrivalSystem.step conf) (init buffer) as = some s) :
    RetriesConclusive conf s := by
  have hinit : Arriving (init buffer : ArrivalSystem LB T) :=
    ⟨⟨fun _ => rfl, fun _ => ⟨rfl, rfl, rfl⟩⟩, ⟨[], hempty, List.suffix_rfl⟩, .nil, nofun, nofun,
      nofun, nofun, nofun⟩
  have harriving : Arriving s :=
    Execution.run_invariant_of_stepsMeet (fun _ _ _ h hcond hstep => h.step hconf hcond hstep)
      hinit horderly hrun
  exact harriving.retriesConclusive

def arrivedActions : List (RequestAction (Chunk 1 10)) :=
  [.start, .write ⟨100⟩, .write ⟨110⟩, .issueRequest (windowRequest 110 115),
    .issueRequest (windowRequest 115 200), .take 0, .take 0, .evaluate 0 .kPartial,
    .evaluate 0 .kNotYet, .conclude 0 0, .conclude 0 0, .write ⟨120⟩, .readRunMarker,
    .readSize, .checkWaitingRequests fun _ => 0, .take 0, .evaluate 0 .kFound, .conclude 0 0,
    .readRunMarker, .readSize, .checkWaitingRequests fun _ => 2000000000, .take 0,
    .evaluate 0 .kPartial, .conclude 0 0]

theorem run_retriesConclusive_chunks : RetriesConclusive chunkConf
    ((Execution.run (ArrivalSystem.step chunkConf) (init emptyRing) arrivedActions).get
      (by decide +kernel)) :=
  run_retriesConclusive chunkConf (atomic_missesUnarrived _ _ _ _) emptyRing
    (IterableQueueModel.represents_fresh (by decide) (by decide)) arrivedActions _
    (Execution.stepsMeet_of_checkSteps (fun _ _ => of_decide_eq_true)
      (by decide +kernel :
        Execution.checkSteps (ArrivalSystem.step chunkConf) (fun s a => decide (Orderly s a))
          (init emptyRing) arrivedActions = true))
    (Option.some_get _).symm

end ArrivalSystem
end DataHandling

import DataHandling.Request.Lifecycle
import DataHandling.Foundation.Counting
import DataHandling.Buffer.RingBuffers
import DataHandling.Chunk

/-! Every request is in one place at a time. The numbers of times a request was issued,
evaluated, put off, retried and sent are tied to the numbers of its entries in the queues, and
every step moves one entry along. -/

namespace DataHandling
open Counting

def PoolTask.isTry (id : ℕ) (retry : Bool) (t : PoolTask) : Bool :=
  t.tracked.id == id && t.isRetry == retry

theorem PoolTask.isTry_false {id : ℕ} {t : PoolTask} (h : t.isRetry = false) :
    t.isTry id false = (t.tracked.id == id) := by
  rw [isTry, h, beq_self_eq_true, Bool.and_true]

theorem PoolTask.isTry_true {id : ℕ} {t : PoolTask} (h : t.isRetry = false) :
    t.isTry id true = false := by
  rw [isTry, h]
  exact Bool.and_false _

namespace RequestSystem
variable {T LB : Type} [ReadoutType T] [LatencyBuffer LB T]

section Counts
variable (s : RequestSystem LB) (id : ℕ) (retry : Bool)

def queuedCount : ℕ := s.poolQueue.countP (PoolTask.isTry id retry)

def servingCount : ℕ := s.serving.countP (PoolTask.isTry id retry)

def concludingCount : ℕ := s.concluding.countP fun e => e.task.isTry id retry

def evaluatedCount : ℕ := s.evaluations.countP fun e => e.1.task.isTry id retry

def sentCount : ℕ := s.sent.countP fun p => p.1.isTry id retry

def waitingCount : ℕ := s.waitingRequests.countP fun r => r.tracked.id == id

def delayedCount : ℕ := s.delayed.countP fun e => e.task.tracked.id == id

def retriedCount : ℕ := s.retried.countP fun r => r.id == id

end Counts

/-- What has gone into a stage of a request's way is still there or has left it. -/
structure Flow (s : RequestSystem LB) (id : ℕ) : Prop where
  issued : (if id < s.nextId then 1 else 0) =
    s.queuedCount id false + s.servingCount id false + s.evaluatedCount id false
  evaluated : s.evaluatedCount id false =
    s.concludingCount id false + s.delayedCount id + s.sentCount id false
  delayed : s.delayedCount id = s.waitingCount id + s.retriedCount id
  retried : s.retriedCount id =
    s.queuedCount id true + s.servingCount id true + s.evaluatedCount id true
  reEvaluated : s.evaluatedCount id true = s.concludingCount id true + s.sentCount id true

/-- Nothing is put off that was not evaluated with a result that is put off. -/
structure Justified (conf : HandlerConf LB) (s : RequestSystem LB) : Prop where
  concluding : ∀ e ∈ s.concluding, ∃ run, (e, run) ∈ s.evaluations
  delayed : ∀ e ∈ s.delayed, requeues conf e = true ∧ ∃ run, (e, run) ∈ s.evaluations
  waiting : ∀ r ∈ s.waitingRequests, ∃ e ∈ s.delayed, e.task.tracked = r.tracked

variable {conf : HandlerConf LB}

theorem requeues_eq_true_iff (e : EvaluatedTask) :
    requeues conf e = true ↔
      (e.code = .kNotYet ∨ e.code = .kPartial) ∧ 0 < conf.requestTimeoutMs ∧
        e.task.isRetry = false := by
  simp [requeues, ResultCode.isDelayed, and_assoc]

section Pass
variable (newest : UInt64) (clock : ℕ → ℤ)

variable (conf) in
/-- A pass splits the waiting list into the retried and the kept entries. -/
theorem checkEntries_count (id : ℕ) (i : ℕ) (rs : List RequestElement) (stats : RequestStats) :
    (checkEntries conf newest clock i rs stats).1.countP (fun r => r.id == id) +
        (checkEntries conf newest clock i rs stats).2.1.countP (fun r => r.tracked.id == id) =
      rs.countP fun r => r.tracked.id == id := by
  induction rs generalizing i stats with
  | nil => rfl
  | cons r rs ih =>
    rw [checkEntries]
    split_ifs
    · simp only [List.countP_cons]
      rw [← ih (i + 1) (countTimeout newest r stats)]
      omega
    · simp only [List.countP_cons]
      rw [← ih (i + 1) stats]
      omega

theorem checkEntries_kept_subset (i : ℕ) (rs : List RequestElement) (stats : RequestStats) :
    ∀ r ∈ (checkEntries conf newest clock i rs stats).2.1, r ∈ rs := by
  induction rs generalizing i stats with
  | nil => simp [checkEntries]
  | cons r rs ih =>
    intro x hx
    rw [checkEntries] at hx
    split_ifs at hx
    · exact List.mem_cons_of_mem _ (ih _ _ x hx)
    · rcases List.mem_cons.mp hx with rfl | hmem
      · exact List.mem_cons_self
      · exact List.mem_cons_of_mem _ (ih _ _ x hmem)

end Pass

theorem countP_tracked_retry (id : ℕ) (retry : Bool) (rs : List TrackedRequest) :
    (rs.map fun tracked => PoolTask.mk tracked true).countP (PoolTask.isTry id retry) =
      if retry then rs.countP fun r => r.id == id else 0 := by
  rw [List.countP_map]
  cases retry with
  | true => simp [Function.comp_def, PoolTask.isTry]
  | false => simp [Function.comp_def, PoolTask.isTry]

theorem flow_init (buffer : LB) (id : ℕ) : Flow (init buffer) id :=
  ⟨rfl, rfl, rfl, rfl, rfl⟩

section Actions
variable {s s' : RequestSystem LB} {id : ℕ}

theorem Flow.issueRequest {request : DataRequest} (h : Flow s id)
    (hstep : step conf s (.issueRequest request : RequestAction T) = some s') : Flow s' id := by
  obtain ⟨h1, h2, h3, h4, h5⟩ := h
  simp only [queuedCount, servingCount, evaluatedCount, retriedCount] at h1 h4
  rw [step] at hstep
  split_ifs at hstep
  cases hstep
  refine ⟨?_, h2, h3, ?_, h5⟩
  · simp only [queuedCount, servingCount, evaluatedCount, List.countP_append,
      List.countP_singleton, PoolTask.isTry_false, beq_iff_eq]
    split_ifs at h1 ⊢ <;> omega
  · simp only [retriedCount, queuedCount, servingCount, evaluatedCount, List.countP_append,
      List.countP_singleton, PoolTask.isTry_true, Bool.false_eq_true, if_false]
    omega

theorem Flow.take {i : ℕ} (h : Flow s id)
    (hstep : step conf s (.take i : RequestAction T) = some s') : Flow s' id := by
  obtain ⟨h1, h2, h3, h4, h5⟩ := h
  simp only [queuedCount, servingCount, evaluatedCount, retriedCount] at h1 h4
  obtain ⟨task, htask, rfl⟩ := Option.map_eq_some_iff.mp hstep
  have hfirst := countP_eraseIdx (PoolTask.isTry id false) htask
  have hretry := countP_eraseIdx (PoolTask.isTry id true) htask
  refine ⟨?_, h2, h3, ?_, h5⟩
  · simp only [queuedCount, servingCount, evaluatedCount, List.countP_append,
      List.countP_singleton]
    omega
  · simp only [retriedCount, queuedCount, servingCount, evaluatedCount, List.countP_append,
      List.countP_singleton]
    omega

theorem Flow.evaluate {i : ℕ} {code : ResultCode} (h : Flow s id)
    (hstep : step conf s (.evaluate i code : RequestAction T) = some s') : Flow s' id := by
  obtain ⟨h1, h2, h3, h4, h5⟩ := h
  simp only [queuedCount, servingCount, concludingCount, evaluatedCount, sentCount, delayedCount,
    retriedCount] at h1 h2 h4 h5
  obtain ⟨task, htask, hstep⟩ := Option.bind_eq_some_iff.mp hstep
  split_ifs at hstep
  cases hstep
  have hfirst := countP_eraseIdx (PoolTask.isTry id false) htask
  have hretry := countP_eraseIdx (PoolTask.isTry id true) htask
  refine ⟨?_, ?_, h3, ?_, ?_⟩
  all_goals
    simp only [retriedCount, queuedCount, servingCount, evaluatedCount, concludingCount,
      delayedCount, sentCount, List.countP_append, List.countP_singleton]
    omega

theorem Flow.conclude {i : ℕ} {now : ℤ} (h : Flow s id)
    (hstep : step conf s (.conclude i now : RequestAction T) = some s') : Flow s' id := by
  obtain ⟨h1, h2, h3, h4, h5⟩ := h
  simp only [concludingCount, evaluatedCount, sentCount, waitingCount, delayedCount,
    retriedCount] at h2 h3 h5
  obtain ⟨e, he, rfl⟩ := Option.map_eq_some_iff.mp hstep
  have hfirst := countP_eraseIdx (fun e => e.task.isTry id false) he
  have hretry := countP_eraseIdx (fun e => e.task.isTry id true) he
  rw [RequestSystem.conclude]
  split_ifs with hrequeue
  · -- a first try is put off
    have htry := ((requeues_eq_true_iff e).mp hrequeue).2.2
    rw [PoolTask.isTry_false htry] at hfirst
    rw [PoolTask.isTry_true htry, if_neg Bool.false_ne_true] at hretry
    refine ⟨h1, ?_, ?_, h4, ?_⟩
    all_goals
      simp only [evaluatedCount, concludingCount, delayedCount, sentCount, waitingCount,
        retriedCount, List.countP_append, List.countP_singleton]
      omega
  · refine ⟨h1, ?_, h3, h4, ?_⟩
    all_goals
      simp only [evaluatedCount, concludingCount, delayedCount, sentCount,
        List.countP_append, List.countP_singleton]
      omega

theorem Flow.checkWaitingRequests (clock : ℕ → ℤ) (h : Flow s id) :
    Flow (s.checkWaitingRequests conf clock) id := by
  obtain ⟨h1, h2, h3, h4, h5⟩ := h
  simp only [queuedCount, servingCount, evaluatedCount, waitingCount, delayedCount,
    retriedCount] at h3 h4
  have hpass := checkEntries_count conf (newestTs s.buffer) clock id 0 s.waitingRequests s.stats
  -- no first try is posted
  have hqueued : (s.checkWaitingRequests conf clock).queuedCount id false =
      s.queuedCount id false := by
    simp only [RequestSystem.checkWaitingRequests, queuedCount, List.countP_append,
      countP_tracked_retry, Bool.false_eq_true, if_false, Nat.add_zero]
  refine ⟨hqueued ▸ h1, h2, ?_, ?_, h5⟩
  all_goals
    simp only [RequestSystem.checkWaitingRequests, queuedCount, servingCount, evaluatedCount,
      delayedCount, waitingCount, retriedCount, List.countP_append, countP_tracked_retry, if_true]
    omega

theorem Flow.step {a : RequestAction T} (h : Flow s id)
    (hpool : s.phase = .stopped → s.poolQueue = [])
    (hstep : RequestSystem.step conf s a = some s') : Flow s' id := by
  cases a with
  | start =>
    rw [RequestSystem.step] at hstep
    split_ifs at hstep with hphase
    cases hstep
    -- the queue that the new pool replaces is empty
    obtain ⟨h1, h2, h3, h4, h5⟩ := h
    rw [queuedCount, hpool hphase] at h1 h4
    exact ⟨h1, h2, h3, h4, h5⟩
  | issueRequest request => exact h.issueRequest hstep
  | take i => exact h.take hstep
  | evaluate i code => exact h.evaluate hstep
  | conclude i now => exact h.conclude hstep
  | readRunMarker | readSize | stop | joinWaitingThread | joinPool =>
    simp only [RequestSystem.step] at hstep
    split_ifs at hstep
    all_goals
      cases hstep
      exact ⟨h.issued, h.evaluated, h.delayed, h.retried, h.reEvaluated⟩
  | checkWaitingRequests clock =>
    rw [RequestSystem.step] at hstep
    split_ifs at hstep
    cases hstep
    exact h.checkWaitingRequests clock
  | write payload =>
    cases hstep
    exact ⟨h.issued, h.evaluated, h.delayed, h.retried, h.reEvaluated⟩
  | cleanup count =>
    obtain ⟨buffer, _, rfl⟩ := Option.map_eq_some_iff.mp hstep
    exact ⟨h.issued, h.evaluated, h.delayed, h.retried, h.reEvaluated⟩

end Actions

/-- Between runs the waiting thread has been joined and the pool is empty. -/
structure Joined (s : RequestSystem LB) : Prop where
  exited : s.phase = .joiningPool ∨ s.phase = .stopped → s.waitingThread = .exited
  drained : s.phase = .stopped → s.poolQueue = [] ∧ s.serving = [] ∧ s.concluding = []

section Joined
variable {s s' : RequestSystem LB}

theorem Joined.running (h : Joined s) (hthread : s.waitingThread ≠ .exited) :
    ¬(s.phase = .joiningPool ∨ s.phase = .stopped) :=
  fun hphase => hthread (h.exited hphase)

theorem Joined.conclude {e : EvaluatedTask} {i : ℕ} (now : ℤ) (h : Joined s)
    (he : s.concluding[i]? = some e) :
    Joined (conclude conf e now { s with concluding := s.concluding.eraseIdx i }) := by
  have hrunning : s.phase ≠ .stopped := by
    intro hstop
    rw [(h.drained hstop).2.2] at he
    cases he
  rw [RequestSystem.conclude]
  split_ifs
  all_goals exact ⟨h.exited, fun hstop => absurd hstop hrunning⟩

theorem Joined.step {a : RequestAction T} (h : Joined s)
    (hstep : RequestSystem.step conf s a = some s') : Joined s' := by
  cases a with
  | start | stop =>
    simp only [RequestSystem.step] at hstep
    split_ifs at hstep
    cases hstep
    exact ⟨by simp, by simp⟩
  | issueRequest request =>
    simp only [RequestSystem.step] at hstep
    split_ifs at hstep with hphase
    cases hstep
    exact ⟨by simp [hphase], by simp [hphase]⟩
  | take i =>
    obtain ⟨task, htask, rfl⟩ := Option.map_eq_some_iff.mp hstep
    refine ⟨h.exited, fun hstop => ?_⟩
    rw [(h.drained hstop).1] at htask
    cases htask
  | evaluate i code =>
    obtain ⟨task, htask, hstep⟩ := Option.bind_eq_some_iff.mp hstep
    split_ifs at hstep
    cases hstep
    refine ⟨h.exited, fun hstop => ?_⟩
    rw [(h.drained hstop).2.1] at htask
    cases htask
  | conclude i now =>
    obtain ⟨e, he, rfl⟩ := Option.map_eq_some_iff.mp hstep
    exact h.conclude now he
  | readRunMarker | readSize =>
    simp only [RequestSystem.step] at hstep
    split_ifs at hstep with hthread
    all_goals
      cases hstep
      have hrunning := h.running (by rw [hthread]; decide)
      exact ⟨fun hphase => absurd hphase hrunning, h.drained⟩
  | checkWaitingRequests clock =>
    simp only [RequestSystem.step] at hstep
    split_ifs at hstep with hthread
    cases hstep
    have hrunning := h.running (by rw [hthread]; decide)
    exact ⟨fun hphase => absurd hphase hrunning, fun hphase => absurd (.inr hphase) hrunning⟩
  | joinWaitingThread =>
    simp only [RequestSystem.step] at hstep
    split_ifs at hstep with hjoin
    cases hstep
    exact ⟨fun _ => hjoin.2, by simp⟩
  | joinPool =>
    simp only [RequestSystem.step] at hstep
    split_ifs at hstep with hjoin
    cases hstep
    exact ⟨fun _ => h.exited (.inl hjoin.1), fun _ => hjoin.2⟩
  | write payload =>
    cases hstep
    exact ⟨h.exited, h.drained⟩
  | cleanup count =>
    obtain ⟨buffer, _, rfl⟩ := Option.map_eq_some_iff.mp hstep
    exact ⟨h.exited, h.drained⟩

end Joined

theorem Justified.step {s s' : RequestSystem LB} {a : RequestAction T} (h : Justified conf s)
    (hstep : RequestSystem.step conf s a = some s') : Justified conf s' := by
  obtain ⟨hconcluding, hdelayed, hwaiting⟩ := h
  cases a with
  | start | issueRequest | stop | readRunMarker | readSize | joinWaitingThread | joinPool =>
    simp only [RequestSystem.step] at hstep
    split_ifs at hstep
    all_goals
      cases hstep
      exact ⟨hconcluding, hdelayed, hwaiting⟩
  | take i =>
    obtain ⟨task, htask, rfl⟩ := Option.map_eq_some_iff.mp hstep
    exact ⟨hconcluding, hdelayed, hwaiting⟩
  | evaluate i code =>
    obtain ⟨task, htask, hstep⟩ := Option.bind_eq_some_iff.mp hstep
    split_ifs at hstep
    cases hstep
    refine ⟨fun e he => ?_, fun e he => ⟨(hdelayed e he).1, ?_⟩, hwaiting⟩
    · rcases List.mem_append.mp he with hold | hnew
      · exact (hconcluding e hold).imp fun run => List.mem_append_left _
      · obtain rfl := List.mem_singleton.mp hnew
        exact ⟨s.currentRun, List.mem_append_right _ (List.mem_singleton.mpr rfl)⟩
    · exact (hdelayed e he).2.imp fun run => List.mem_append_left _
  | conclude i now =>
    obtain ⟨e, he, rfl⟩ := Option.map_eq_some_iff.mp hstep
    have hkept : ∀ x ∈ s.concluding.eraseIdx i, ∃ run, (x, run) ∈ s.evaluations := fun x hx =>
      hconcluding x (List.mem_of_mem_eraseIdx hx)
    rw [conclude]
    split_ifs with hrequeue
    · refine ⟨hkept, fun x hx => ?_, fun r hr => ?_⟩
      · rcases List.mem_append.mp hx with hold | hnew
        · exact hdelayed x hold
        · obtain rfl := List.mem_singleton.mp hnew
          exact ⟨hrequeue, hconcluding x (List.mem_of_getElem? he)⟩
      · rcases List.mem_append.mp hr with hold | hnew
        · exact (hwaiting r hold).imp fun x hx => ⟨List.mem_append_left _ hx.1, hx.2⟩
        · obtain rfl := List.mem_singleton.mp hnew
          exact ⟨e, List.mem_append_right _ (List.mem_singleton.mpr rfl), rfl⟩
    · exact ⟨hkept, hdelayed, hwaiting⟩
  | checkWaitingRequests clock =>
    simp only [RequestSystem.step] at hstep
    split_ifs at hstep
    cases hstep
    exact ⟨hconcluding, hdelayed, fun r hr =>
      hwaiting r (checkEntries_kept_subset _ _ _ _ _ r hr)⟩
  | write payload =>
    cases hstep
    exact ⟨hconcluding, hdelayed, hwaiting⟩
  | cleanup count =>
    obtain ⟨buffer, _, rfl⟩ := Option.map_eq_some_iff.mp hstep
    exact ⟨hconcluding, hdelayed, hwaiting⟩

structure Conserved (conf : HandlerConf LB) (s : RequestSystem LB) : Prop where
  joined : Joined s
  flow : ∀ id, Flow s id
  justified : Justified conf s

theorem conserved_init (conf : HandlerConf LB) (buffer : LB) : Conserved conf (init buffer) where
  joined := ⟨fun _ => rfl, fun _ => ⟨rfl, rfl, rfl⟩⟩
  flow := flow_init buffer
  justified := ⟨by simp [init], by simp [init], by simp [init]⟩

theorem Conserved.step {s s' : RequestSystem LB} {a : RequestAction T} (h : Conserved conf s)
    (hstep : RequestSystem.step conf s a = some s') : Conserved conf s' where
  joined := h.joined.step hstep
  flow := fun id => (h.flow id).step (fun hstop => (h.joined.drained hstop).1) hstep
  justified := h.justified.step hstep

/-- Every request issued is in one place, is evaluated at most twice and answered at most once;
a retried request does not wait again, and one waits only after a first evaluation that found
its data not yet or partly there. -/
structure OnePlace (conf : HandlerConf LB) (s : RequestSystem LB) : Prop where
  place : ∀ id < s.nextId,
    s.queuedCount id false + (s.servingCount id false + s.concludingCount id false) +
        s.waitingCount id + s.queuedCount id true +
        (s.servingCount id true + s.concludingCount id true) +
        s.sent.countP (fun p => p.1.tracked.id == id) = 1
  evaluated_le_two : ∀ id, s.evaluations.countP (fun e => e.1.task.tracked.id == id) ≤ 2
  sent_le_one : ∀ id, s.sent.countP (fun p => p.1.tracked.id == id) ≤ 1
  delayed_le_one : ∀ id, s.delayedCount id ≤ 1
  retried_not_waiting : ∀ r ∈ s.retried, ∀ w ∈ s.waitingRequests, w.tracked.id ≠ r.id
  waiting_delayed : ∀ w ∈ s.waitingRequests, ∃ e ∈ s.delayed, e.task.tracked = w.tracked
  delayed_first : ∀ e ∈ s.delayed, e.task.isRetry = false ∧
    (e.code = .kNotYet ∨ e.code = .kPartial) ∧ 0 < conf.requestTimeoutMs ∧
      ∃ run, (e, run) ∈ s.evaluations

section Totals
variable (s : RequestSystem LB) (id : ℕ)

theorem sent_count_eq : s.sent.countP (fun p => p.1.tracked.id == id) =
    s.sentCount id false + s.sentCount id true := by
  rw [countP_and_not _ fun p => p.1.isRetry]
  simp [sentCount, PoolTask.isTry]

theorem evaluations_count_eq : s.evaluations.countP (fun e => e.1.task.tracked.id == id) =
    s.evaluatedCount id false + s.evaluatedCount id true := by
  rw [countP_and_not _ fun e => e.1.task.isRetry]
  simp [evaluatedCount, PoolTask.isTry]

end Totals

theorem Conserved.onePlace {s : RequestSystem LB} (h : Conserved conf s) : OnePlace conf s where
  place := by
    intro id hid
    obtain ⟨h1, h2, h3, h4, h5⟩ := h.flow id
    rw [if_pos hid] at h1
    rw [sent_count_eq]
    omega
  evaluated_le_two := by
    intro id
    obtain ⟨h1, h2, h3, h4, h5⟩ := h.flow id
    rw [evaluations_count_eq]
    split_ifs at h1 <;> omega
  sent_le_one := by
    intro id
    obtain ⟨h1, h2, h3, h4, h5⟩ := h.flow id
    rw [sent_count_eq]
    split_ifs at h1 <;> omega
  delayed_le_one := by
    intro id
    obtain ⟨h1, h2, h3, h4, h5⟩ := h.flow id
    split_ifs at h1 <;> omega
  retried_not_waiting := by
    intro r hr w hw heq
    obtain ⟨h1, h2, h3, h4, h5⟩ := h.flow r.id
    have hretried : 0 < s.retriedCount r.id :=
      List.countP_pos_iff.mpr ⟨r, hr, beq_self_eq_true _⟩
    have hwaiting : 0 < s.waitingCount r.id :=
      List.countP_pos_iff.mpr ⟨w, hw, beq_iff_eq.mpr heq⟩
    split_ifs at h1 <;> omega
  waiting_delayed := h.justified.waiting
  delayed_first := by
    intro e he
    obtain ⟨hrequeue, hrun⟩ := h.justified.delayed e he
    obtain ⟨hcode, htimeout, hfirst⟩ := (requeues_eq_true_iff e).mp hrequeue
    exact ⟨hfirst, hcode, htimeout, hrun⟩

theorem run_conserved (conf : HandlerConf LB) (buffer : LB) (as : List (RequestAction T))
    {s : RequestSystem LB}
    (hrun : Execution.run (RequestSystem.step conf) (init buffer) as = some s) :
    Conserved conf s :=
  Execution.run_invariant (fun _ _ _ h hstep => h.step hstep) (conserved_init conf buffer) hrun

/-- In every reachable state every request is in one place. -/
theorem run_onePlace (conf : HandlerConf LB) (buffer : LB) (as : List (RequestAction T))
    (s : RequestSystem LB)
    (hrun : Execution.run (RequestSystem.step conf) (init buffer) as = some s) :
    OnePlace conf s :=
  (run_conserved conf buffer as hrun).onePlace

section Chunks

def chunkConf : HandlerConf (BinarySearchQueueModel (Chunk 1 10)) :=
  .atomic .empty ⟨1, 2, (3, 4)⟩ 5 1000

def emptyRing : BinarySearchQueueModel (Chunk 1 10) := ⟨.fresh _ 4⟩

def windowRequest (windowBegin windowEnd : UInt64) : DataRequest :=
  ⟨1, 0, 1, 0, windowBegin, windowEnd, "fragments"⟩

/-- A request that comes before its data, times out on the waiting list, and is answered on the
retry. -/
def retriedActions : List (RequestAction (Chunk 1 10)) :=
  [.start, .write ⟨100⟩, .issueRequest (windowRequest 115 200), .take 0, .evaluate 0 .kNotYet,
    .conclude 0 0, .write ⟨110⟩, .write ⟨120⟩, .readRunMarker, .readSize,
    .checkWaitingRequests fun _ => 2000000000, .take 0, .evaluate 0 .kPartial, .conclude 0 0]

theorem run_onePlace_retried : OnePlace chunkConf
    ((Execution.run (RequestSystem.step chunkConf) (init emptyRing) retriedActions).get
      (by decide +kernel)) :=
  run_onePlace chunkConf emptyRing retriedActions _ (Option.some_get _).symm

end Chunks

end RequestSystem
end DataHandling

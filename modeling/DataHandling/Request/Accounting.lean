import DataHandling.Foundation.Ledger
import DataHandling.Request.NoLoss

/-! The request counters as they are published. The pool threads and the thread that checks the
waiting list increment them, while `generate_opmon_data` exchanges one after the other for zero;
`start` resets them. -/

namespace DataHandling
open MachineInt

inductive RequestCounter where
  | found
  | bad
  | oldWindow
  | delayed
  | timedOut
  | handled
  deriving DecidableEq

namespace RequestStats

def get (stats : RequestStats) : RequestCounter → Int32
  | .found => stats.numRequestsFound
  | .bad => stats.numRequestsBad
  | .oldWindow => stats.numRequestsOldWindow
  | .delayed => stats.numRequestsDelayed
  | .timedOut => stats.numRequestsTimedOut
  | .handled => stats.handledRequests

def clear (stats : RequestStats) : RequestCounter → RequestStats
  | .found => { stats with numRequestsFound := 0 }
  | .bad => { stats with numRequestsBad := 0 }
  | .oldWindow => { stats with numRequestsOldWindow := 0 }
  | .delayed => { stats with numRequestsDelayed := 0 }
  | .timedOut => { stats with numRequestsTimedOut := 0 }
  | .handled => { stats with handledRequests := 0 }

theorem get_clear (stats : RequestStats) (c d : RequestCounter) :
    (stats.clear c).get d = if d = c then 0 else stats.get d := by
  cases c <;> cases d <;> rfl

end RequestStats

namespace RequestCounter

def codes : RequestCounter → List ResultCode
  | .found => [.kFound, .kPartiallyOld]
  | .bad => [.kTooOld, .kNotFound, .kCleanup, .kUnknown]
  | .oldWindow => [.kTooOld, .kPartiallyOld]
  | .delayed => [.kPartial, .kNotYet]
  | .timedOut | .handled => []

def timeouts (ts : List TrackedRequest) : RequestCounter → ℕ
  | .bad | .timedOut => ts.length
  | .found | .oldWindow | .delayed | .handled => 0

theorem timeouts_append (ts us : List TrackedRequest) (c : RequestCounter) :
    c.timeouts (ts ++ us) = c.timeouts ts + c.timeouts us := by
  cases c <;> simp [timeouts]

end RequestCounter

theorem RequestStats.get_count (stats : RequestStats) (code : ResultCode) (c : RequestCounter) :
    (stats.count code).get c = if code ∈ c.codes then stats.get c + 1 else stats.get c := by
  cases c <;> cases code <;> rfl

/-- The handler, with what was published since the last `start`, and the retries that were counted
as timed out since then. -/
structure AccountedSystem (LB : Type) where
  handler : RequestSystem LB
  published : RequestCounter → List ℕ
  timedOut : List TrackedRequest

/-- A step of the handler's threads, or an `exchange(0)` of a poll. Where a step increments two
counters, an exchange in between is one before the step or one after it. -/
inductive AccountedAction (T : Type) where
  | handler (a : RequestAction T)
  | exchange (c : RequestCounter)

namespace AccountedSystem
open RequestSystem

variable {T LB : Type} [ReadoutType T] [LatencyBuffer LB T]

def init (buffer : LB) : AccountedSystem LB := ⟨.init buffer, fun _ => [], []⟩

def notArrived (newest : UInt64) (ts : List TrackedRequest) : List TrackedRequest :=
  ts.filter fun t => !decide (t.request.windowEnd < newest)

def timeouts (conf : HandlerConf LB) (s : RequestSystem LB) : RequestAction T → List TrackedRequest
  | .checkWaitingRequests clock =>
    notArrived (newestTs s.buffer)
      (checkEntries conf (newestTs s.buffer) clock 0 s.waitingRequests s.stats).1
  | _ => []

def step (conf : HandlerConf LB) (s : AccountedSystem LB) :
    AccountedAction T → Option (AccountedSystem LB)
  | .handler .start =>
    (RequestSystem.step conf s.handler .start).map fun handler => ⟨handler, fun _ => [], []⟩
  | .handler a =>
    (RequestSystem.step conf s.handler a).map fun handler =>
      ⟨handler, s.published, s.timedOut ++ timeouts conf s.handler a⟩
  | .exchange c =>
    some { s with
      handler := { s.handler with stats := s.handler.stats.clear c }
      published := fun d =>
        if d = c then s.published d ++ [toSize (s.handler.stats.get d).toInt] else s.published d }

variable (s : AccountedSystem LB)

def ledger (c : RequestCounter) : Ledger := ⟨s.handler.stats.get c, s.published c⟩

def evaluated (codes : List ResultCode) : ℕ :=
  s.handler.evaluations.countP fun e => e.2 == s.handler.currentRun && decide (e.1.code ∈ codes)

def evaluatedAll : ℕ := s.handler.evaluations.countP fun e => e.2 == s.handler.currentRun

/-- What was published since `start` and what is left for the next poll add up to what happened:
the evaluations of the run by their results, the timeouts, and the requests that a pool thread is
done with. Once the handler has stopped, the published numbers balance. -/
structure PublishesRequests : Prop where
  found : (s.ledger .found).Records (s.evaluated [.kFound, .kPartiallyOld])
  oldWindow : (s.ledger .oldWindow).Records (s.evaluated [.kTooOld, .kPartiallyOld])
  delayed : (s.ledger .delayed).Records (s.evaluated [.kPartial, .kNotYet])
  timedOut : (s.ledger .timedOut).Records s.timedOut.length
  bad : (s.ledger .bad).Records
    (s.evaluated [.kTooOld, .kNotFound, .kCleanup, .kUnknown] + s.timedOut.length)
  handled : ∃ n, (s.ledger .handled).Records n ∧ n + s.handler.concluding.length = s.evaluatedAll
  balanced : s.handler.phase = .stopped →
    ((s.ledger .handled).total + (s.ledger .timedOut).total) % 4294967296 =
      ((s.ledger .found).total + (s.ledger .bad).total + (s.ledger .delayed).total) % 4294967296

structure Accounted : Prop where
  joined : Joined s.handler
  past : ∀ e ∈ s.handler.evaluations, e.2 ≤ s.handler.currentRun
  counted : ∀ c ≠ .handled, (s.ledger c).Records
    (s.evaluated c.codes + c.timeouts s.timedOut)
  handled : ∃ n, (s.ledger .handled).Records n ∧ n + s.handler.concluding.length = s.evaluatedAll

variable {s} {conf : HandlerConf LB}

omit [ReadoutType T] [LatencyBuffer LB T] in
theorem accounted_init (buffer : LB) : Accounted (init buffer) where
  joined := ⟨fun _ => rfl, fun _ => ⟨rfl, rfl, rfl⟩⟩
  past := by
    intro e he
    cases he
  counted := by
    intro c _
    cases c <;> exact Ledger.records_zero
  handled := ⟨0, Ledger.records_zero, rfl⟩

/-- A pass over the waiting list counts each retry whose data have not arrived as bad and as timed
out, and nothing else. -/
theorem records_checkEntries {c : RequestCounter} {published : List ℕ} (newest : UInt64)
    (clock : ℕ → ℤ) (i : ℕ) (rs : List RequestElement) {stats : RequestStats} {n : ℕ}
    (h : Ledger.Records ⟨stats.get c, published⟩ n) :
    Ledger.Records ⟨(checkEntries conf newest clock i rs stats).2.2.get c, published⟩
      (n + c.timeouts (notArrived newest (checkEntries conf newest clock i rs stats).1)) := by
  induction rs generalizing i stats n with
  | nil =>
    cases c <;> exact h
  | cons r rs ih =>
    rw [checkEntries]
    by_cases hretries : retries conf newest (clock i) r = true
    · rw [if_pos hretries]
      by_cases harrived : r.tracked.request.windowEnd < newest
      · have hkept : ∀ ts, notArrived newest (r.tracked :: ts) = notArrived newest ts := by
          intro ts
          simp [notArrived, harrived]
        rw [hkept, countTimeout, if_pos harrived]
        exact ih (i + 1) h
      · have hlogged : ∀ ts, c.timeouts (notArrived newest (r.tracked :: ts)) =
            c.timeouts [r.tracked] + c.timeouts (notArrived newest ts) := by
          intro ts
          rw [← RequestCounter.timeouts_append]
          simp [notArrived, harrived]
        rw [hlogged, countTimeout, if_neg harrived, ← Nat.add_assoc]
        apply ih
        cases c with
        | bad | timedOut => exact h.increment
        | found | oldWindow | delayed | handled => exact h
    · rw [if_neg hretries]
      exact ih (i + 1) h

theorem Accounted.unchanged (h : Accounted s) {handler : RequestSystem LB}
    (hjoined : Joined handler) (heval : handler.evaluations = s.handler.evaluations)
    (hrun : handler.currentRun = s.handler.currentRun)
    (hconcluding : handler.concluding = s.handler.concluding)
    (hstats : handler.stats = s.handler.stats) :
    Accounted ⟨handler, s.published, s.timedOut ++ []⟩ where
  joined := hjoined
  past := by
    rw [heval, hrun]
    exact h.past
  counted := by
    intro c hc
    have hcounted := h.counted c hc
    rw [List.append_nil]
    simpa only [ledger, evaluated, heval, hrun, hstats] using hcounted
  handled := by
    have hhandled := h.handled
    simpa only [ledger, evaluatedAll, heval, hrun, hconcluding, hstats] using hhandled

theorem Accounted.evaluate (h : Accounted s) {i : ℕ} {code : ResultCode}
    {handler : RequestSystem LB} (hjoined : Joined handler)
    (hstep : RequestSystem.step conf s.handler (.evaluate i code : RequestAction T) =
      some handler) :
    Accounted ⟨handler, s.published, s.timedOut ++ []⟩ := by
  obtain ⟨task, htask, hstep⟩ := Option.bind_eq_some_iff.mp hstep
  split_ifs at hstep
  cases hstep
  refine ⟨hjoined, forall_mem_concat h.past (Nat.le_refl _), fun c hc => ?_, ?_⟩
  · have hcounted := h.counted c hc
    simp only [ledger, evaluated, List.append_nil, List.countP_append, List.countP_singleton,
      RequestStats.get_count, beq_self_eq_true, Bool.true_and, decide_eq_true_eq] at hcounted ⊢
    split_ifs
    · rw [Nat.add_right_comm]
      exact hcounted.increment
    · exact hcounted
  · obtain ⟨n, hrecords, hn⟩ := h.handled
    refine ⟨n, ?_, ?_⟩
    · simp only [ledger, RequestStats.get_count, RequestCounter.codes, List.not_mem_nil, if_false]
      exact hrecords
    · simp only [evaluatedAll, List.countP_append, List.countP_singleton, beq_self_eq_true,
        if_true, List.length_append, List.length_singleton] at hn ⊢
      omega

omit [ReadoutType T] [LatencyBuffer LB T] in
theorem conclude_spec (conf : HandlerConf LB) (e : EvaluatedTask) (now : ℤ)
    (t : RequestSystem LB) :
    (conclude conf e now t).evaluations = t.evaluations ∧
      (conclude conf e now t).currentRun = t.currentRun ∧
      (conclude conf e now t).concluding = t.concluding ∧
      (conclude conf e now t).stats =
        { t.stats with handledRequests := t.stats.handledRequests + 1 } := by
  unfold conclude
  split_ifs <;> exact ⟨rfl, rfl, rfl, rfl⟩

theorem Accounted.conclude (h : Accounted s) {i : ℕ} {now : ℤ} {handler : RequestSystem LB}
    (hjoined : Joined handler)
    (hstep : RequestSystem.step conf s.handler (.conclude i now : RequestAction T) =
      some handler) :
    Accounted ⟨handler, s.published, s.timedOut ++ []⟩ := by
  obtain ⟨e, he, rfl⟩ := Option.map_eq_some_iff.mp hstep
  have hlength : (s.handler.concluding.eraseIdx i).length + 1 = s.handler.concluding.length := by
    obtain ⟨hi, _⟩ := List.getElem?_eq_some_iff.mp he
    rw [List.length_eraseIdx_of_lt hi]
    omega
  obtain ⟨heval, hrun, hconcluding, hstats⟩ :=
    conclude_spec conf e now { s.handler with concluding := s.handler.concluding.eraseIdx i }
  refine ⟨hjoined, ?_, fun c hc => ?_, ?_⟩
  · rw [heval, hrun]
    exact h.past
  · have hcounted := h.counted c hc
    rw [List.append_nil]
    simp only [ledger, evaluated, heval, hrun, hstats]
    cases c with
    | handled => exact absurd rfl hc
    | found | bad | oldWindow | delayed | timedOut => exact hcounted
  · obtain ⟨n, hrecords, hn⟩ := h.handled
    refine ⟨n + 1, ?_, ?_⟩
    · simp only [ledger, hstats]
      exact hrecords.increment
    · simp only [evaluatedAll, heval, hrun, hconcluding] at hn ⊢
      omega

theorem Accounted.checkWaitingRequests (h : Accounted s) {clock : ℕ → ℤ}
    {handler : RequestSystem LB} (hjoined : Joined handler)
    (hstep : RequestSystem.step conf s.handler (.checkWaitingRequests clock : RequestAction T) =
      some handler) :
    Accounted ⟨handler, s.published,
      s.timedOut ++ timeouts conf s.handler (.checkWaitingRequests clock : RequestAction T)⟩ := by
  simp only [RequestSystem.step] at hstep
  split_ifs at hstep
  cases hstep
  refine ⟨hjoined, h.past, fun c hc => ?_, ?_⟩
  · rw [RequestCounter.timeouts_append, ← Nat.add_assoc]
    exact records_checkEntries _ clock 0 _ (h.counted c hc)
  · obtain ⟨n, hrecords, hn⟩ := h.handled
    exact ⟨n, records_checkEntries _ clock 0 _ hrecords, hn⟩

theorem Accounted.start (h : Accounted s) {handler : RequestSystem LB} (hjoined : Joined handler)
    (hstep : RequestSystem.step conf s.handler (.start : RequestAction T) = some handler) :
    Accounted ⟨handler, fun _ => [], []⟩ := by
  simp only [RequestSystem.step] at hstep
  split_ifs at hstep with hphase
  cases hstep
  have hnone : ∀ e ∈ s.handler.evaluations, ¬ (e.2 == s.handler.currentRun + 1) = true := by
    intro e he heq
    have hle := h.past e he
    rw [beq_iff_eq.mp heq] at hle
    exact Nat.not_succ_le_self _ hle
  have hevaluated : ∀ codes : List ResultCode, s.handler.evaluations.countP
      (fun e => e.2 == s.handler.currentRun + 1 && decide (e.1.code ∈ codes)) = 0 := by
    intro codes
    apply List.countP_eq_zero.mpr
    intro e he heq
    exact hnone e he (Bool.and_eq_true_iff.mp heq).1
  refine ⟨hjoined, fun e he => Nat.le_succ_of_le (h.past e he), fun c hc => ?_, ?_⟩
  · simp only [ledger, evaluated, hevaluated]
    cases c <;> exact Ledger.records_zero
  · refine ⟨0, Ledger.records_zero, ?_⟩
    have hconcluding := (h.joined.drained hphase).2.2
    simp only [evaluatedAll, hconcluding, List.length_nil, List.countP_eq_zero.mpr hnone]

theorem Accounted.exchange (h : Accounted s) (c : RequestCounter) :
    Accounted
      { s with
        handler := { s.handler with stats := s.handler.stats.clear c }
        published := fun d =>
          if d = c then s.published d ++ [toSize (s.handler.stats.get d).toInt]
          else s.published d } := by
  have hledger : ∀ d n, (s.ledger d).Records n → Ledger.Records
      ⟨(s.handler.stats.clear c).get d,
        if d = c then s.published d ++ [toSize (s.handler.stats.get d).toInt]
        else s.published d⟩ n := by
    intro d n hrecords
    rw [RequestStats.get_clear]
    split_ifs with hd
    · exact hrecords.publish
    · exact hrecords
  refine ⟨⟨h.joined.exited, h.joined.drained⟩, h.past, fun d hd => ?_, ?_⟩
  · exact hledger d _ (h.counted d hd)
  · obtain ⟨n, hrecords, hn⟩ := h.handled
    exact ⟨n, hledger _ _ hrecords, hn⟩

theorem Accounted.step {s' : AccountedSystem LB} {a : AccountedAction T} (h : Accounted s)
    (hstep : AccountedSystem.step conf s a = some s') : Accounted s' := by
  cases a with
  | exchange c =>
    cases hstep
    exact h.exchange c
  | handler a =>
    cases a with
    | start =>
      obtain ⟨handler, hhandler, rfl⟩ := Option.map_eq_some_iff.mp hstep
      exact h.start (h.joined.step hhandler) hhandler
    | evaluate i code =>
      obtain ⟨handler, hhandler, rfl⟩ := Option.map_eq_some_iff.mp hstep
      exact h.evaluate (h.joined.step hhandler) hhandler
    | conclude i now =>
      obtain ⟨handler, hhandler, rfl⟩ := Option.map_eq_some_iff.mp hstep
      exact h.conclude (h.joined.step hhandler) hhandler
    | checkWaitingRequests clock =>
      obtain ⟨handler, hhandler, rfl⟩ := Option.map_eq_some_iff.mp hstep
      exact h.checkWaitingRequests (h.joined.step hhandler) hhandler
    | issueRequest _ | readRunMarker | readSize | stop | joinWaitingThread | joinPool =>
      obtain ⟨handler, hhandler, rfl⟩ := Option.map_eq_some_iff.mp hstep
      have hjoined := h.joined.step hhandler
      simp only [RequestSystem.step] at hhandler
      split_ifs at hhandler
      all_goals
        cases hhandler
        exact h.unchanged hjoined rfl rfl rfl rfl
    | write payload =>
      cases hstep
      exact h.unchanged ⟨h.joined.exited, h.joined.drained⟩ rfl rfl rfl rfl
    | take i =>
      obtain ⟨handler, hhandler, rfl⟩ := Option.map_eq_some_iff.mp hstep
      have hjoined := h.joined.step hhandler
      obtain ⟨task, _, rfl⟩ := Option.map_eq_some_iff.mp hhandler
      exact h.unchanged hjoined rfl rfl rfl rfl
    | cleanup count =>
      obtain ⟨handler, hhandler, rfl⟩ := Option.map_eq_some_iff.mp hstep
      have hjoined := h.joined.step hhandler
      obtain ⟨buffer, _, rfl⟩ := Option.map_eq_some_iff.mp hhandler
      exact h.unchanged hjoined rfl rfl rfl rfl

theorem evaluated_nil (s : AccountedSystem LB) : s.evaluated [] = 0 := by
  simp [evaluated]

theorem evaluatedAll_eq (s : AccountedSystem LB) :
    s.evaluatedAll = s.evaluated [.kFound, .kPartiallyOld] +
      s.evaluated [.kTooOld, .kNotFound, .kCleanup, .kUnknown] +
        s.evaluated [.kPartial, .kNotYet] := by
  unfold evaluatedAll evaluated
  induction s.handler.evaluations with
  | nil => rfl
  | cons e es ih =>
    simp only [List.countP_cons]
    rw [ih]
    cases hrun : e.2 == s.handler.currentRun
    · simp
    · cases hcode : e.1.code <;> simp <;> omega

theorem Accounted.publishesRequests (h : Accounted s) : s.PublishesRequests where
  found := h.counted .found (by decide)
  oldWindow := h.counted .oldWindow (by decide)
  delayed := h.counted .delayed (by decide)
  timedOut := by
    have htimedOut := h.counted .timedOut (by decide)
    rwa [RequestCounter.codes, evaluated_nil, Nat.zero_add] at htimedOut
  bad := h.counted .bad (by decide)
  handled := h.handled
  balanced := by
    intro hphase
    obtain ⟨n, hrecords, hn⟩ := h.handled
    rw [(h.joined.drained hphase).2.2, List.length_nil, Nat.add_zero, evaluatedAll_eq] at hn
    have hfound := (h.counted .found (by decide)).residue
    have hbad := (h.counted .bad (by decide)).residue
    have hdelayed := (h.counted .delayed (by decide)).residue
    have htimedOut := (h.counted .timedOut (by decide)).residue
    have hhandled := hrecords.residue
    simp only [RequestCounter.codes, RequestCounter.timeouts, evaluated_nil]
      at hfound hbad hdelayed htimedOut
    omega

/-- The published request numbers add up in every interleaving of the handler's threads with the
polls. -/
theorem run_publishesRequests (conf : HandlerConf LB) (buffer : LB)
    (as : List (AccountedAction T)) (s : AccountedSystem LB)
    (hrun : Execution.run (AccountedSystem.step conf) (init buffer) as = some s) :
    s.PublishesRequests := by
  have haccounted : Accounted s :=
    Execution.run_invariant (fun _ _ _ h hstep => h.step hstep) (accounted_init buffer) hrun
  exact haccounted.publishesRequests

def polledActions : List (AccountedAction (Chunk 1 10)) :=
  (retriedActions.take 6).map .handler ++ [.exchange .delayed, .exchange .handled] ++
    (retriedActions.drop 6).map .handler ++ [.exchange .bad, .exchange .timedOut] ++
      [.stop, .readRunMarker, .joinWaitingThread, .joinPool].map .handler

theorem run_publishesRequests_polled : PublishesRequests
    ((Execution.run (AccountedSystem.step chunkConf) (init emptyRing) polledActions).get
      (by decide +kernel)) :=
  run_publishesRequests chunkConf emptyRing polledActions _ (Option.some_get _).symm

end AccountedSystem
end DataHandling

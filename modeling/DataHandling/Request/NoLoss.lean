import DataHandling.Request.Conservation

/-! When a stopped handler has answered every request of its runs: the thread that checks the
waiting list must not leave, or have left, a request in it. -/

namespace DataHandling.RequestSystem
open Counting

variable {T LB : Type} [ReadoutType T] [LatencyBuffer LB T]

/-- A step that strands no request: the waiting thread leaves with the list empty, and no
request is put off after it has left. -/
def StrandsNone (conf : HandlerConf LB) (s : RequestSystem LB) : RequestAction T → Prop
  | .readRunMarker =>
    s.waitingThread = .atRunMarker → s.runMarker = false → s.waitingRequests = []
  | .conclude i _ =>
    s.waitingThread = .exited → ∀ e ∈ s.concluding[i]?, requeues conf e = false
  | _ => True

instance (conf : HandlerConf LB) (s : RequestSystem LB) :
    (a : RequestAction T) → Decidable (StrandsNone conf s a)
  | .readRunMarker =>
    inferInstanceAs (Decidable (s.waitingThread = .atRunMarker → s.runMarker = false →
      s.waitingRequests = []))
  | .conclude i _ =>
    inferInstanceAs (Decidable (s.waitingThread = .exited →
      ∀ e ∈ s.concluding[i]?, requeues conf e = false))
  | .start | .issueRequest _ | .take _ | .evaluate _ _ | .readSize | .checkWaitingRequests _
  | .stop | .joinWaitingThread | .joinPool | .write _ | .cleanup _ => isTrue trivial

/-- Once stopped, the handler has sent one fragment for each request and keeps none; a request
is evaluated and answered in its own run. -/
structure NoneLost (s : RequestSystem LB) : Prop where
  waiting : s.phase = .stopped → s.waitingRequests = []
  answered : s.phase = .stopped → ∀ id < s.nextId,
    s.sent.countP (fun p => p.1.tracked.id == id) = 1
  evaluated_run : ∀ e ∈ s.evaluations, e.1.task.tracked.run = e.2
  sent_run : ∀ p ∈ s.sent, p.1.tracked.run = p.2

/-- The requests under way belong to the current run, and none waits without the thread that
checks the list. -/
structure CurrentRun (s : RequestSystem LB) : Prop where
  waiting : s.waitingThread = .exited → s.waitingRequests = []
  pool_run : ∀ t ∈ s.poolQueue, t.tracked.run = s.currentRun
  serving_run : ∀ t ∈ s.serving, t.tracked.run = s.currentRun
  concluding_run : ∀ e ∈ s.concluding, e.task.tracked.run = s.currentRun
  waiting_run : ∀ r ∈ s.waitingRequests, r.tracked.run = s.currentRun
  evaluated_run : ∀ e ∈ s.evaluations, e.1.task.tracked.run = e.2
  sent_run : ∀ p ∈ s.sent, p.1.tracked.run = p.2

variable {conf : HandlerConf LB}

theorem checkEntries_retried_subset (newest : UInt64) (clock : ℕ → ℤ) (i : ℕ)
    (rs : List RequestElement) (stats : RequestStats) :
    ∀ t ∈ (checkEntries conf newest clock i rs stats).1, ∃ r ∈ rs, r.tracked = t := by
  induction rs generalizing i stats with
  | nil => simp [checkEntries]
  | cons r rs ih =>
    intro t ht
    rw [checkEntries] at ht
    split_ifs at ht
    · rcases List.mem_cons.mp ht with rfl | hmem
      · exact ⟨r, List.mem_cons_self, rfl⟩
      · exact (ih _ _ t hmem).imp fun x hx => ⟨List.mem_cons_of_mem _ hx.1, hx.2⟩
    · exact (ih _ _ t ht).imp fun x hx => ⟨List.mem_cons_of_mem _ hx.1, hx.2⟩

theorem forall_mem_concat {α : Type*} {p : α → Prop} {xs : List α} {a : α}
    (hxs : ∀ x ∈ xs, p x) (ha : p a) : ∀ x ∈ xs ++ [a], p x := by
  simpa [or_imp, forall_and] using ⟨hxs, ha⟩

theorem forall_mem_eraseIdx {α : Type*} {p : α → Prop} {xs : List α} (hxs : ∀ x ∈ xs, p x)
    (i : ℕ) : ∀ x ∈ xs.eraseIdx i, p x := fun x hx => hxs x (List.mem_of_mem_eraseIdx hx)

theorem CurrentRun.step {s s' : RequestSystem LB} {a : RequestAction T} (h : CurrentRun s)
    (hjoined : Joined s) (hcond : StrandsNone conf s a)
    (hstep : RequestSystem.step conf s a = some s') : CurrentRun s' := by
  obtain ⟨hwaiting, hpool, hserving, hconcluding, hrun, hevaluated, hsent⟩ := h
  cases a with
  | start =>
    simp only [RequestSystem.step] at hstep
    split_ifs at hstep with hphase
    cases hstep
    -- nothing is left of the run before
    obtain ⟨_, hnoServing, hnoConcluding⟩ := hjoined.drained hphase
    have hnone := hwaiting (hjoined.exited (.inr hphase))
    exact ⟨by simp, by simp, by simp [hnoServing], by simp [hnoConcluding], by simp [hnone],
      hevaluated, hsent⟩
  | issueRequest request =>
    simp only [RequestSystem.step] at hstep
    split_ifs at hstep
    cases hstep
    exact ⟨hwaiting, forall_mem_concat hpool rfl, hserving, hconcluding, hrun, hevaluated, hsent⟩
  | take i =>
    obtain ⟨task, htask, rfl⟩ := Option.map_eq_some_iff.mp hstep
    exact ⟨hwaiting, forall_mem_eraseIdx hpool i,
      forall_mem_concat hserving (hpool task (List.mem_of_getElem? htask)), hconcluding, hrun,
      hevaluated, hsent⟩
  | evaluate i code =>
    obtain ⟨task, htask, hstep⟩ := Option.bind_eq_some_iff.mp hstep
    split_ifs at hstep
    cases hstep
    have htaskRun := hserving task (List.mem_of_getElem? htask)
    exact ⟨hwaiting, hpool, forall_mem_eraseIdx hserving i, forall_mem_concat hconcluding htaskRun,
      hrun, forall_mem_concat hevaluated htaskRun, hsent⟩
  | conclude i now =>
    obtain ⟨e, he, rfl⟩ := Option.map_eq_some_iff.mp hstep
    have heRun := hconcluding e (List.mem_of_getElem? he)
    have hkept := forall_mem_eraseIdx hconcluding i
    rw [conclude]
    split_ifs with hrequeue
    · refine ⟨fun hexited => ?_, hpool, hserving, hkept, forall_mem_concat hrun heRun, hevaluated,
        hsent⟩
      rw [hcond hexited e he] at hrequeue
      cases hrequeue
    · exact ⟨hwaiting, hpool, hserving, hkept, hrun, hevaluated, forall_mem_concat hsent heRun⟩
  | readRunMarker =>
    simp only [RequestSystem.step] at hstep
    split_ifs at hstep with hthread hmarker
    · cases hstep
      exact ⟨by simp, hpool, hserving, hconcluding, hrun, hevaluated, hsent⟩
    · cases hstep
      exact ⟨fun _ => hcond hthread (Bool.eq_false_iff.mpr hmarker), hpool, hserving, hconcluding,
        hrun, hevaluated, hsent⟩
  | readSize =>
    simp only [RequestSystem.step] at hstep
    split_ifs at hstep
    all_goals
      cases hstep
      exact ⟨by simp, hpool, hserving, hconcluding, hrun, hevaluated, hsent⟩
  | checkWaitingRequests clock =>
    simp only [RequestSystem.step] at hstep
    split_ifs at hstep
    cases hstep
    refine ⟨by simp [checkWaitingRequests], fun t ht => ?_, hserving, hconcluding, fun r hr => ?_,
      hevaluated, hsent⟩
    · rcases List.mem_append.mp ht with hold | hnew
      · exact hpool t hold
      · obtain ⟨tracked, htracked, rfl⟩ := List.mem_map.mp hnew
        obtain ⟨r, hr, rfl⟩ := checkEntries_retried_subset _ _ _ _ _ tracked htracked
        exact hrun r hr
    · exact hrun r (checkEntries_kept_subset _ _ _ _ _ r hr)
  | stop | joinWaitingThread | joinPool =>
    simp only [RequestSystem.step] at hstep
    split_ifs at hstep
    cases hstep
    exact ⟨hwaiting, hpool, hserving, hconcluding, hrun, hevaluated, hsent⟩
  | write payload =>
    cases hstep
    exact ⟨hwaiting, hpool, hserving, hconcluding, hrun, hevaluated, hsent⟩
  | cleanup count =>
    obtain ⟨buffer, _, rfl⟩ := Option.map_eq_some_iff.mp hstep
    exact ⟨hwaiting, hpool, hserving, hconcluding, hrun, hevaluated, hsent⟩

theorem noneLost_of_currentRun {s : RequestSystem LB} (hconserved : Conserved conf s)
    (h : CurrentRun s) : NoneLost s where
  waiting := fun hphase => h.waiting (hconserved.joined.exited (.inr hphase))
  answered := by
    intro hphase id hid
    have hplace := hconserved.onePlace.place id hid
    obtain ⟨hpool, hserving, hconcluding⟩ := hconserved.joined.drained hphase
    have hwaiting := h.waiting (hconserved.joined.exited (.inr hphase))
    simpa only [queuedCount, servingCount, concludingCount, waitingCount, hpool, hserving,
      hconcluding, hwaiting, List.countP_nil, Nat.zero_add] using hplace
  evaluated_run := h.evaluated_run
  sent_run := h.sent_run

/-- A run that strands no request loses none. -/
theorem run_noneLost (conf : HandlerConf LB) (buffer : LB) (as : List (RequestAction T))
    (s : RequestSystem LB)
    (hmeet : Execution.StepsMeet (RequestSystem.step conf) (StrandsNone conf) (init buffer) as)
    (hrun : Execution.run (RequestSystem.step conf) (init buffer) as = some s) : NoneLost s := by
  have hinit : Conserved conf (init buffer) ∧ CurrentRun (init buffer) :=
    ⟨conserved_init conf buffer, by simp [init], by simp [init], by simp [init], by simp [init],
      by simp [init], by simp [init], by simp [init]⟩
  have hall := Execution.run_invariant_of_stepsMeet
    (I := fun s => Conserved conf s ∧ CurrentRun s)
    (fun _ _ _ hI hcond hstep => ⟨hI.1.step hstep, hI.2.step hI.1.joined hcond hstep⟩)
    hinit hmeet hrun
  exact noneLost_of_currentRun hall.1 hall.2

def answeredActions : List (RequestAction (Chunk 1 10)) :=
  retriedActions ++ [.stop, .readRunMarker, .joinWaitingThread, .joinPool]

theorem run_noneLost_answered : NoneLost
    ((Execution.run (RequestSystem.step chunkConf) (init emptyRing) answeredActions).get
      (by decide +kernel)) :=
  run_noneLost chunkConf emptyRing answeredActions _
    (Execution.stepsMeet_of_checkSteps (fun _ _ => of_decide_eq_true)
      (by decide +kernel :
        Execution.checkSteps (RequestSystem.step chunkConf)
          (fun s a => decide (StrandsNone chunkConf s a)) (init emptyRing) answeredActions = true))
    (Option.some_get _).symm

def strandedActions : List (RequestAction (Chunk 1 10)) :=
  [.start, .write ⟨100⟩, .issueRequest (windowRequest 115 200), .take 0, .evaluate 0 .kNotYet,
    .conclude 0 0, .stop, .readRunMarker, .joinWaitingThread, .joinPool]

theorem not_noneLost_of_stranded :
    ¬ ∀ (as : List (RequestAction (Chunk 1 10)))
      (s : RequestSystem (BinarySearchQueueModel (Chunk 1 10))),
        Execution.run (RequestSystem.step chunkConf) (init emptyRing) as = some s →
          NoneLost s := by
  intro h
  have hlost := (h strandedActions _
    (Option.some_get (by decide +kernel : (Execution.run (RequestSystem.step chunkConf)
      (init emptyRing) strandedActions).isSome)).symm).waiting (by decide +kernel)
  exact absurd hlost (by decide +kernel)

end DataHandling.RequestSystem

import DataHandling.Foundation.Execution
import DataHandling.Foundation.Tally

/-! The monitoring counters of `DataHandlingModel` from the resets in `start()` on: the consumer
thread, which counts payloads, the timesync thread, the callbacks for requests, and
`generate_opmon_data`. Every load, store, increment and exchange of a counter is a step. -/

namespace DataHandling
open MachineInt

/-- What `start()` does next. -/
inductive StartPhase where
  | consumerWork
  | timesyncWork
  | addCallback
  | started
  deriving DecidableEq

/-- A thread that resets its two counters before its loop. In the loop, `counting` stands between
its two increments for a payload. -/
inductive CountingThread where
  | ready
  | resettingNum
  | resettingSum
  | looping
  | counting
  deriving DecidableEq

/-- What a poll does next, in the order of `generate_opmon_data`. -/
inductive OpmonPhase where
  | sumPayloads
  | numPayloads
  | sumRequests
  | numRequests
  deriving DecidableEq

structure MonitoringSystem where
  payloads : Tally
  requests : Tally
  startPhase : StartPhase
  consumer : CountingThread
  timesync : CountingThread
  /-- The callbacks between their two increments. -/
  dispatching : ℕ
  opmon : OpmonPhase

/-- The next step of `start()`, of the two threads, or of a poll; or one of the two increments of
`dispatch_requests`. -/
inductive MonitoringAction where
  | start
  | consume
  | timesync
  | dispatchNum
  | dispatchSum
  | poll
  deriving DecidableEq

namespace MonitoringSystem
variable (generateTimesync : Bool)

/-- After the resets in `start()`, with a poll in progress or about to begin. -/
def init (opmon : OpmonPhase) : MonitoringSystem where
  payloads := .zero
  requests := .zero
  startPhase := .consumerWork
  consumer := .ready
  timesync := .ready
  dispatching := 0
  opmon := opmon

def start (s : MonitoringSystem) : Option MonitoringSystem :=
  match s.startPhase with
  | .consumerWork => some { s with consumer := .resettingNum, startPhase := .timesyncWork }
  | .timesyncWork =>
    some { s with
      timesync := if generateTimesync then .resettingNum else .ready
      startPhase := .addCallback }
  | .addCallback => some { s with startPhase := .started }
  | .started => none

def consume (s : MonitoringSystem) : Option MonitoringSystem :=
  match s.consumer with
  | .ready => none
  | .resettingNum => some { s with payloads := s.payloads.resetNum, consumer := .resettingSum }
  | .resettingSum => some { s with payloads := s.payloads.resetSum, consumer := .looping }
  | .looping => some { s with payloads := s.payloads.incrementNum, consumer := .counting }
  | .counting => some { s with payloads := s.payloads.incrementSum, consumer := .looping }

def runTimesync (s : MonitoringSystem) : Option MonitoringSystem :=
  match s.timesync with
  | .resettingNum => some { s with requests := s.requests.resetNum, timesync := .resettingSum }
  | .resettingSum => some { s with requests := s.requests.resetSum, timesync := .looping }
  | _ => none

def generateOpmonData (s : MonitoringSystem) : MonitoringSystem :=
  match s.opmon with
  | .sumPayloads => { s with payloads := s.payloads.publishSum, opmon := .numPayloads }
  | .numPayloads => { s with payloads := s.payloads.publishNum, opmon := .sumRequests }
  | .sumRequests => { s with requests := s.requests.publishSum, opmon := .numRequests }
  | .numRequests => { s with requests := s.requests.publishNum, opmon := .sumPayloads }

def step (s : MonitoringSystem) : MonitoringAction → Option MonitoringSystem
  | .start => s.start generateTimesync
  | .consume => s.consume
  | .timesync => s.runTimesync
  | .dispatchNum =>
    if s.startPhase = .started then
      some { s with requests := s.requests.incrementNum, dispatching := s.dispatching + 1 }
    else none
  | .dispatchSum =>
    if s.dispatching ≠ 0 then
      some { s with requests := s.requests.incrementSum, dispatching := s.dispatching - 1 }
    else none
  | .poll => some s.generateOpmonData

/-- The totals of payloads and of requests are conserved, where an event that is between its two
increments is missing in the second counter. -/
structure TotalsConserved (s : MonitoringSystem) : Prop where
  payloads : s.payloads.Conserved
  requests : s.requests.Conserved
  payloads_counted :
    s.payloads.counted = s.payloads.summed + if s.consumer = .counting then 1 else 0
  requests_counted : s.requests.counted = s.requests.summed + s.dispatching

/-- No counter is incremented beyond `2^31 - 1`, and the timesync thread finds the request counters
at zero when it resets them. -/
def CountsFit (s : MonitoringSystem) : MonitoringAction → Prop
  | .consume =>
    (s.consumer = .looping → s.payloads.num < 2147483647) ∧
      (s.consumer = .counting → s.payloads.sum < 2147483647)
  | .timesync =>
    (s.timesync = .resettingNum → s.requests.num = 0) ∧
      (s.timesync = .resettingSum → s.requests.sum = 0)
  | .dispatchNum => s.requests.num < 2147483647
  | .dispatchSum => s.requests.sum < 2147483647
  | .start | .poll => True

instance (s : MonitoringSystem) (a : MonitoringAction) : Decidable (CountsFit s a) :=
  match a with
  | .consume => inferInstanceAs (Decidable (_ ∧ _))
  | .timesync => inferInstanceAs (Decidable (_ ∧ _))
  | .dispatchNum => inferInstanceAs (Decidable (_ < _))
  | .dispatchSum => inferInstanceAs (Decidable (_ < _))
  | .start | .poll => isTrue trivial

/-- The totals, and that no payload is counted before the consumer thread is in its loop. -/
structure Totals (s : MonitoringSystem) : Prop extends TotalsConserved s where
  ready : s.startPhase = .consumerWork → s.consumer = .ready
  none_counted : s.consumer ≠ .looping → s.consumer ≠ .counting →
    s.payloads.counted = 0 ∧ s.payloads.summed = 0

section Steps
variable {generateTimesync : Bool} {s s' : MonitoringSystem}

theorem totals_init (opmon : OpmonPhase) : Totals (init opmon) where
  payloads := Tally.conserved_zero
  requests := Tally.conserved_zero
  payloads_counted := rfl
  requests_counted := rfl
  ready := fun _ => rfl
  none_counted := fun _ _ => ⟨rfl, rfl⟩

theorem Totals.start (h : Totals s) (hstep : s.start generateTimesync = some s') : Totals s' := by
  unfold MonitoringSystem.start at hstep
  split at hstep
  · rename_i hphase
    cases hstep
    have hready := h.ready hphase
    obtain ⟨hcounted, hsummed⟩ := h.none_counted (by rw [hready]; decide) (by rw [hready]; decide)
    exact ⟨⟨h.payloads, h.requests, by rw [hcounted, hsummed]; rfl, h.requests_counted⟩,
      (by rintro ⟨⟩), fun _ _ => ⟨hcounted, hsummed⟩⟩
  · cases hstep
    exact ⟨⟨h.payloads, h.requests, h.payloads_counted, h.requests_counted⟩, (by rintro ⟨⟩),
      h.none_counted⟩
  · cases hstep
    exact ⟨⟨h.payloads, h.requests, h.payloads_counted, h.requests_counted⟩, (by rintro ⟨⟩),
      h.none_counted⟩
  · cases hstep

theorem Totals.consume (h : Totals s) (hfits : CountsFit s .consume)
    (hstep : s.consume = some s') : Totals s' := by
  have hphase : s.consumer ≠ .ready → s.startPhase ≠ .consumerWork := fun hne heq =>
    hne (h.ready heq)
  unfold MonitoringSystem.consume at hstep
  split at hstep
  · cases hstep
  · rename_i hconsumer
    cases hstep
    obtain ⟨hcounted, hsummed⟩ :=
      h.none_counted (by rw [hconsumer]; decide) (by rw [hconsumer]; decide)
    refine ⟨⟨h.payloads.resetNum (h.payloads.eq_zero hcounted hsummed).1, h.requests, ?_,
      h.requests_counted⟩, fun heq => absurd heq (hphase (by rw [hconsumer]; decide)),
      fun _ _ => ⟨hcounted, hsummed⟩⟩
    exact hcounted.trans (by rw [Tally.resetNum, hsummed]; rfl)
  · rename_i hconsumer
    cases hstep
    obtain ⟨hcounted, hsummed⟩ :=
      h.none_counted (by rw [hconsumer]; decide) (by rw [hconsumer]; decide)
    refine ⟨⟨h.payloads.resetSum (h.payloads.eq_zero hcounted hsummed).2, h.requests, ?_,
      h.requests_counted⟩, fun heq => absurd heq (hphase (by rw [hconsumer]; decide)),
      fun _ _ => ⟨hcounted, hsummed⟩⟩
    exact hcounted.trans (by rw [Tally.resetSum, hsummed]; rfl)
  · rename_i hconsumer
    cases hstep
    have hcounted := h.payloads_counted
    rw [hconsumer, if_neg (by decide)] at hcounted
    exact ⟨⟨h.payloads.incrementNum (hfits.1 hconsumer), h.requests,
      congrArg (· + 1) hcounted, h.requests_counted⟩,
      fun heq => absurd heq (hphase (by rw [hconsumer]; decide)), fun _ hne => absurd rfl hne⟩
  · rename_i hconsumer
    cases hstep
    have hcounted := h.payloads_counted
    rw [hconsumer, if_pos rfl] at hcounted
    exact ⟨⟨h.payloads.incrementSum (hfits.2 hconsumer), h.requests, hcounted,
      h.requests_counted⟩, fun heq => absurd heq (hphase (by rw [hconsumer]; decide)),
      fun hne _ => absurd rfl hne⟩

theorem Totals.timesync (h : Totals s) (hfits : CountsFit s .timesync)
    (hstep : s.runTimesync = some s') : Totals s' := by
  unfold MonitoringSystem.runTimesync at hstep
  split at hstep
  · rename_i htimesync
    cases hstep
    exact ⟨⟨h.payloads, h.requests.resetNum (hfits.1 htimesync), h.payloads_counted,
      h.requests_counted⟩, h.ready, h.none_counted⟩
  · rename_i htimesync
    cases hstep
    exact ⟨⟨h.payloads, h.requests.resetSum (hfits.2 htimesync), h.payloads_counted,
      h.requests_counted⟩, h.ready, h.none_counted⟩
  · cases hstep

theorem Totals.poll (h : Totals s) : Totals s.generateOpmonData := by
  unfold generateOpmonData
  split
  · exact ⟨⟨h.payloads.publishSum, h.requests, h.payloads_counted, h.requests_counted⟩, h.ready,
      h.none_counted⟩
  · exact ⟨⟨h.payloads.publishNum, h.requests, h.payloads_counted, h.requests_counted⟩, h.ready,
      h.none_counted⟩
  · exact ⟨⟨h.payloads, h.requests.publishSum, h.payloads_counted, h.requests_counted⟩, h.ready,
      h.none_counted⟩
  · exact ⟨⟨h.payloads, h.requests.publishNum, h.payloads_counted, h.requests_counted⟩, h.ready,
      h.none_counted⟩

theorem Totals.step {a : MonitoringAction} (h : Totals s) (hfits : CountsFit s a)
    (hstep : step generateTimesync s a = some s') : Totals s' := by
  cases a with
  | start => exact h.start hstep
  | consume => exact h.consume hfits hstep
  | timesync => exact h.timesync hfits hstep
  | dispatchNum =>
    simp only [MonitoringSystem.step] at hstep
    split_ifs at hstep
    cases hstep
    refine ⟨⟨h.payloads, h.requests.incrementNum hfits, h.payloads_counted, ?_⟩, h.ready,
      h.none_counted⟩
    exact congrArg (· + 1) h.requests_counted
  | dispatchSum =>
    simp only [MonitoringSystem.step] at hstep
    split_ifs at hstep with hne
    cases hstep
    refine ⟨⟨h.payloads, h.requests.incrementSum hfits, h.payloads_counted, ?_⟩, h.ready,
      h.none_counted⟩
    have hcounted := h.requests_counted
    simp only [Tally.incrementSum]
    omega
  | poll =>
    cases hstep
    exact h.poll

end Steps

/-- In every run in which no counter overflows and the timesync thread finds the request counters
at zero, the totals are conserved. -/
theorem run_totalsConserved (generateTimesync : Bool) (opmon : OpmonPhase)
    (as : List MonitoringAction) (t : MonitoringSystem)
    (hfits : Execution.StepsMeet (step generateTimesync) CountsFit (init opmon) as)
    (hrun : Execution.run (step generateTimesync) (init opmon) as = some t) : TotalsConserved t :=
  (Execution.run_invariant_of_stepsMeet (fun _ _ _ h hc hs => h.step hc hs) (totals_init opmon)
    hfits hrun).toTotalsConserved

def polledActions : List MonitoringAction :=
  [.start, .start, .start, .consume, .consume, .timesync, .timesync, .consume, .consume,
    .poll, .poll, .dispatchNum, .poll, .poll, .dispatchSum]

def polledState : MonitoringSystem :=
  (Execution.run (step true) (init .sumPayloads) polledActions).get (by decide)

theorem run_totalsConserved_polled : TotalsConserved polledState :=
  run_totalsConserved true .sumPayloads polledActions polledState
    (Execution.stepsMeet_of_checkSteps (fun _ _ => of_decide_eq_true)
      (by decide : Execution.checkSteps (step true) (fun s a => decide (CountsFit s a))
        (init .sumPayloads) polledActions = true))
    (Option.some_get _).symm

def earlyRequestActions : List MonitoringAction :=
  [.start, .start, .start, .dispatchNum, .dispatchSum, .timesync, .timesync]

def earlyRequestState : MonitoringSystem :=
  (Execution.run (step true) (init .sumPayloads) earlyRequestActions).get (by decide)

theorem not_totalsConserved_of_earlyRequest :
    ¬ ∀ as t, Execution.run (step true) (init .sumPayloads) as = some t → TotalsConserved t := by
  intro h
  have htotal := (h earlyRequestActions earlyRequestState (Option.some_get _).symm).requests.total
  revert htotal
  decide

end MonitoringSystem
end DataHandling

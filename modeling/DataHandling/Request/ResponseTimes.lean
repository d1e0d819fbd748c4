import DataHandling.Foundation.Execution
import DataHandling.Foundation.MachineInt
import Mathlib.Logic.Function.Basic

/-! The statistics of response times: requests of the thread pool update them at the end of
`issue_request`, and `generate_opmon_data` publishes and resets them. Every atomic load, store,
increment and exchange is a step. -/

namespace DataHandling
open MachineInt

inductive Extreme where
  | max
  | min
  deriving DecidableEq

namespace Extreme

def Exceeds (time value : ℤ) : Extreme → Prop
  | .max => time > value
  | .min => time < value

instance (time value : ℤ) (e : Extreme) : Decidable (e.Exceeds time value) :=
  match e with
  | .max => inferInstanceAs (Decidable (time > value))
  | .min => inferInstanceAs (Decidable (time < value))

def Reaches (value time : ℤ) : Extreme → Prop
  | .max => time ≤ value
  | .min => value ≤ time

instance (value time : ℤ) (e : Extreme) : Decidable (e.Reaches value time) :=
  match e with
  | .max => inferInstanceAs (Decidable (time ≤ value))
  | .min => inferInstanceAs (Decidable (value ≤ time))

def reset : Extreme → ℤ
  | .max => 0
  | .min => 2147483647

variable {a b c : ℤ}

theorem reaches_of_not_exceeds {e : Extreme} (h : ¬ e.Exceeds b a) : e.Reaches a b := by
  cases e
  · exact Int.not_lt.mp h
  · exact Int.not_lt.mp h

theorem Reaches.refl (e : Extreme) (a : ℤ) : e.Reaches a a := by
  cases e
  · exact Int.le_refl a
  · exact Int.le_refl a

theorem Reaches.trans {e : Extreme} (h : e.Reaches a b) (h' : e.Reaches b c) :
    e.Reaches a c := by
  cases e
  · exact Int.le_trans h' h
  · exact Int.le_trans h h'

end Extreme

/-- What an update does next; a completed one knows the first poll that began after it. -/
inductive UpdatePhase where
  | load (e : Extreme)
  | store (e : Extreme)
  | count
  | completed (last : ℕ)
  deriving DecidableEq

/-- What a poll does next, in the order of `generate_opmon_data`. -/
inductive PollPhase where
  | handledRequests
  | responseTimeAcc
  | responseTime (e : Extreme)
  | publish
  deriving DecidableEq

/-- The statistics of a request that took `time` microseconds. The update began during the poll
`first`, or else `first` is the next one. -/
structure ResponseUpdate where
  time : ℤ
  first : ℕ
  phase : UpdatePhase
  deriving DecidableEq

structure RequestHandlerInfo where
  numRequestsHandled : ℕ
  totRequestResponseTime : ℕ
  responseTime : Extreme → ℕ
  avgRequestResponseTime : ℕ

/-- `m_response_time_max` and `m_response_time_min` are the values of `responseTime`. The updates
are those of all threads, in the order in which they began, and `info` is the record of the poll in
progress. -/
structure ResponseStatistics where
  handledRequests : ℤ
  responseTimeAcc : ℤ
  responseTime : Extreme → ℤ
  updates : List ResponseUpdate
  poll : PollPhase
  info : RequestHandlerInfo
  published : List RequestHandlerInfo

/-- A request begins its update, the `j`-th update takes its next step, or a poll does. -/
inductive ResponseAction where
  | request (time : ℤ)
  | update (j : ℕ)
  | poll

namespace RequestHandlerInfo

def empty : RequestHandlerInfo := ⟨0, 0, fun _ => 0, 0⟩

def withAverage (info : RequestHandlerInfo) : RequestHandlerInfo :=
  if info.numRequestsHandled > 0 then
    { info with
      avgRequestResponseTime := info.totRequestResponseTime / info.numRequestsHandled }
  else info

theorem withAverage_responseTime (info : RequestHandlerInfo) :
    info.withAverage.responseTime = info.responseTime := by
  unfold withAverage
  split_ifs <;> rfl

end RequestHandlerInfo

namespace UpdatePhase

def after : Extreme → UpdatePhase
  | .max => .load .min
  | .min => .count

def Past (e : Extreme) : UpdatePhase → Prop
  | .load current | .store current => e = .max ∧ current = .min
  | .count | .completed _ => True

theorem past_after {e current : Extreme} :
    (after current).Past e ↔ e = current ∨ (load current).Past e := by
  cases e <;> cases current <;> simp [after, Past]

def Keeps (time : ℤ) (values : Extreme → ℤ) : UpdatePhase → Prop
  | .store e => e.Reaches time (values e)
  | .load _ | .count | .completed _ => True

instance (time : ℤ) (values : Extreme → ℤ) (p : UpdatePhase) : Decidable (p.Keeps time values) :=
  match p with
  | .store e => inferInstanceAs (Decidable (e.Reaches _ _))
  | .load _ | .count | .completed _ => isTrue trivial

end UpdatePhase

namespace PollPhase

def after : Extreme → PollPhase
  | .max => .responseTime .min
  | .min => .publish

def Past (e : Extreme) : PollPhase → Prop
  | .handledRequests | .responseTimeAcc => False
  | .responseTime current => e = .max ∧ current = .min
  | .publish => True

instance (e : Extreme) (p : PollPhase) : Decidable (p.Past e) :=
  match p with
  | .handledRequests | .responseTimeAcc => isFalse id
  | .responseTime _ => inferInstanceAs (Decidable (_ ∧ _))
  | .publish => isTrue trivial

theorem past_after {e current : Extreme} :
    (after current).Past e ↔ e = current ∨ (responseTime current).Past e := by
  cases e <;> cases current <;> simp [after, Past]

theorem not_past_responseTime (e : Extreme) : ¬ (responseTime e).Past e := by
  rintro ⟨hmax, hmin⟩
  cases hmax.symm.trans hmin

theorem after_ne_handledRequests (e : Extreme) : after e ≠ .handledRequests := by
  cases e
  · rintro ⟨⟩
  · rintro ⟨⟩

end PollPhase

namespace ResponseStatistics

def init : ResponseStatistics where
  handledRequests := 0
  responseTimeAcc := 0
  responseTime := Extreme.reset
  updates := []
  poll := .handledRequests
  info := .empty
  published := []

def nextPoll (s : ResponseStatistics) : ℕ :=
  if s.poll = .handledRequests then s.published.length else s.published.length + 1

def request (s : ResponseStatistics) (time : ℤ) : ResponseStatistics :=
  { s with
    responseTimeAcc := i32 (s.responseTimeAcc + i32 time)
    updates := s.updates ++ [⟨time, s.published.length, .load .max⟩] }

def setPhase (s : ResponseStatistics) (j : ℕ) (u : ResponseUpdate) (phase : UpdatePhase) :
    ResponseStatistics :=
  { s with updates := s.updates.set j { u with phase := phase } }

def update (s : ResponseStatistics) (j : ℕ) (u : ResponseUpdate) : Option ResponseStatistics :=
  match u.phase with
  | .load e =>
    some (s.setPhase j u (if e.Exceeds u.time (s.responseTime e) then .store e else .after e))
  | .store e =>
    some { s.setPhase j u (.after e) with
      responseTime := Function.update s.responseTime e (i32 u.time) }
  | .count =>
    some { s.setPhase j u (.completed s.nextPoll) with
      handledRequests := i32 (s.handledRequests + 1) }
  | .completed _ => none

def generateOpmonData (s : ResponseStatistics) : ResponseStatistics :=
  match s.poll with
  | .handledRequests =>
    { s with
      handledRequests := 0
      info := { RequestHandlerInfo.empty with numRequestsHandled := toSize s.handledRequests }
      poll := .responseTimeAcc }
  | .responseTimeAcc =>
    { s with
      responseTimeAcc := 0
      info := { s.info with totRequestResponseTime := toSize s.responseTimeAcc }
      poll := .responseTime .max }
  | .responseTime e =>
    { s with
      responseTime := Function.update s.responseTime e e.reset
      info := { s.info with
        responseTime := Function.update s.info.responseTime e (toSize (s.responseTime e)) }
      poll := .after e }
  | .publish =>
    { s with published := s.published ++ [s.info.withAverage], poll := .handledRequests }

def step (s : ResponseStatistics) : ResponseAction → Option ResponseStatistics
  | .request time => some (s.request time)
  | .update j => s.updates[j]?.bind (s.update j)
  | .poll => some s.generateOpmonData

/-- Each completed update is reflected in both extremes, by a poll from the one in progress when it
began to the first one after it completed. -/
def ExtremesPublished (s : ResponseStatistics) : Prop :=
  ∀ u ∈ s.updates, ∀ last, u.phase = .completed last → last < s.published.length →
    ∀ e : Extreme, ∃ i info, u.first ≤ i ∧ i ≤ last ∧ s.published[i]? = some info ∧
      e.Reaches (info.responseTime e) u.time

/-- No store replaces a more extreme value, and no response time overflows 32 bits. -/
def KeepsExtremes (s : ResponseStatistics) : ResponseAction → Prop
  | .request time => 0 ≤ time ∧ time < 2147483648
  | .update j => ∀ u ∈ s.updates[j]?, u.phase.Keeps u.time s.responseTime
  | .poll => True

instance (s : ResponseStatistics) (a : ResponseAction) : Decidable (s.KeepsExtremes a) :=
  match a with
  | .request _ => inferInstanceAs (Decidable (_ ∧ _))
  | .update _ => inferInstanceAs (Decidable (∀ _ ∈ _, _))
  | .poll => isTrue trivial

def lastPoll (s : ResponseStatistics) (phase : UpdatePhase) : ℕ :=
  match phase with
  | .completed last => last
  | _ => s.nextPoll

/-- A response time is reached by a published extreme, by one that the poll in progress has read, or
by the one that the next exchange will read, within the polls from `first` to `last`. -/
inductive Covered (s : ResponseStatistics) (e : Extreme) (time : ℤ) (first last : ℕ) : Prop where
  | published (i : ℕ) (info : RequestHandlerInfo) (hinfo : s.published[i]? = some info)
      (hfirst : first ≤ i) (hlast : i ≤ last) (hreach : e.Reaches (info.responseTime e) time)
  | exchanged (hpast : s.poll.Past e) (hlast : s.published.length ≤ last)
      (hreach : e.Reaches (s.info.responseTime e) time)
  | current (hlast : (if s.poll.Past e then s.published.length + 1 else s.published.length) ≤ last)
      (hreach : e.Reaches (s.responseTime e) time)

structure Tracked (s : ResponseStatistics) : Prop where
  value_range : ∀ e, 0 ≤ s.responseTime e ∧ s.responseTime e < 2147483648
  time_range : ∀ u ∈ s.updates, 0 ≤ u.time ∧ u.time < 2147483648
  first_le : ∀ u ∈ s.updates, u.first ≤ s.published.length
  covered : ∀ u ∈ s.updates, ∀ e, u.phase.Past e →
    s.Covered e u.time u.first (s.lastPoll u.phase)

section Steps
variable {s s' : ResponseStatistics} {e : Extreme} {time : ℤ} {first last last' : ℕ}

theorem Covered.mono (h : s.Covered e time first last) (hpublished : s'.published = s.published)
    (hpast : s'.poll.Past e ↔ s.poll.Past e)
    (hinfo : s.poll.Past e → s'.info.responseTime e = s.info.responseTime e)
    (hvalue : e.Reaches (s.responseTime e) time → e.Reaches (s'.responseTime e) time)
    (hle : last ≤ last') : s'.Covered e time first last' := by
  cases h with
  | published i info hget hfirst hlast hreach =>
    exact .published i info (by rw [hpublished]; exact hget) hfirst (Nat.le_trans hlast hle) hreach
  | exchanged hexchanged hlast hreach =>
    refine .exchanged (hpast.mpr hexchanged) ?_ ?_
    · rw [hpublished]
      exact Nat.le_trans hlast hle
    · rw [hinfo hexchanged]
      exact hreach
  | current hlast hreach =>
    refine .current ?_ (hvalue hreach)
    simp only [hpublished, hpast]
    exact Nat.le_trans hlast hle

theorem tracked_init : Tracked init where
  value_range := by
    intro e
    cases e <;> decide
  time_range := nofun
  first_le := nofun
  covered := nofun

theorem le_nextPoll (s : ResponseStatistics) (e : Extreme) :
    (if s.poll.Past e then s.published.length + 1 else s.published.length) ≤ s.nextPoll := by
  unfold nextPoll
  split_ifs with hpast hidle
  · rw [hidle] at hpast
    exact hpast.elim
  · exact Nat.le_refl _
  · exact Nat.le_refl _
  · exact Nat.le_succ _

theorem Tracked.request (h : Tracked s) (htime : 0 ≤ time ∧ time < 2147483648) :
    Tracked (s.request time) := by
  refine ⟨h.value_range, fun u hu => ?_, fun u hu => ?_, fun u hu e hpast => ?_⟩
  all_goals rcases List.mem_append.mp hu with hold | hnew
  · exact h.time_range u hold
  · cases List.mem_singleton.mp hnew
    exact htime
  · exact h.first_le u hold
  · cases List.mem_singleton.mp hnew
    exact Nat.le_refl _
  · exact (h.covered u hold e hpast).mono rfl Iff.rfl (fun _ => rfl) id (Nat.le_refl _)
  · cases List.mem_singleton.mp hnew
    obtain ⟨-, hmin⟩ := hpast
    cases hmin

theorem Tracked.setPhase {j : ℕ} {u : ResponseUpdate} {phase : UpdatePhase} (h : Tracked s)
    (hu : s.updates[j]? = some u) (hupdates : s'.updates = (s.setPhase j u phase).updates)
    (hpublished : s'.published = s.published) (hpoll : s'.poll = s.poll) (hinfo : s'.info = s.info)
    (hrange : ∀ e, 0 ≤ s'.responseTime e ∧ s'.responseTime e < 2147483648)
    (hvalue : ∀ e : Extreme, e.Reaches (s'.responseTime e) (s.responseTime e))
    (hlast : s.lastPoll phase = s.lastPoll u.phase)
    (hnew : ∀ e, phase.Past e → u.phase.Past e ∨ e.Reaches (s'.responseTime e) u.time ∧
      s.lastPoll u.phase = s.nextPoll) : Tracked s' := by
  have hmem := List.mem_of_getElem? hu
  have hlastPoll : ∀ phase, s'.lastPoll phase = s.lastPoll phase := fun phase => by
    unfold lastPoll nextPoll
    rw [hpoll, hpublished]
  have hkeep : ∀ w ∈ s.updates, ∀ e, w.phase.Past e →
      s'.Covered e w.time w.first (s'.lastPoll w.phase) := fun w hw e hpast =>
    (h.covered w hw e hpast).mono hpublished (by rw [hpoll]) (fun _ => by rw [hinfo])
      (fun hreach => (hvalue e).trans hreach) (Nat.le_of_eq (hlastPoll _).symm)
  refine ⟨hrange, fun w hw => ?_, fun w hw => ?_, fun w hw e hpast => ?_⟩
  all_goals
    rw [hupdates] at hw
    rcases List.mem_or_eq_of_mem_set hw with hold | rfl
  · exact h.time_range w hold
  · exact h.time_range u hmem
  · rw [hpublished]
    exact h.first_le w hold
  · rw [hpublished]
    exact h.first_le u hmem
  · exact hkeep w hold e hpast
  · rw [hlastPoll, hlast]
    rcases hnew e hpast with hpast' | ⟨hreach, heq⟩
    · rw [← hlastPoll]
      exact hkeep u hmem e hpast'
    · refine .current ?_ hreach
      rw [heq, hpoll, hpublished]
      exact s.le_nextPoll e

theorem Tracked.update {j : ℕ} {u : ResponseUpdate} (h : Tracked s) (hu : s.updates[j]? = some u)
    (hkeeps : u.phase.Keeps u.time s.responseTime) (hstep : s.update j u = some s') :
    Tracked s' := by
  have hsame : ∀ e : Extreme, e.Reaches (s.responseTime e) (s.responseTime e) := fun e =>
    .refl e _
  obtain ⟨htime0, htime⟩ := h.time_range u (List.mem_of_getElem? hu)
  unfold ResponseStatistics.update at hstep
  split at hstep
  · rename_i e hphase
    cases hstep
    split_ifs with hexceeds
    · exact h.setPhase hu rfl rfl rfl rfl h.value_range hsame (by rw [hphase]; rfl)
        fun e' hpast => .inl (by rw [hphase]; exact hpast)
    · refine h.setPhase hu rfl rfl rfl rfl h.value_range hsame ?_ fun e' hpast => ?_
      · rw [hphase]
        cases e <;> rfl
      · rw [hphase]
        rcases UpdatePhase.past_after.mp hpast with rfl | hbefore
        · exact .inr ⟨Extreme.reaches_of_not_exceeds hexceeds, rfl⟩
        · exact .inl hbefore
  · rename_i e hphase
    cases hstep
    rw [hphase] at hkeeps
    have hstored : i32 u.time = u.time := by
      have hcast := i32_of_lt (n := u.time.toNat) (by omega)
      rwa [Int.toNat_of_nonneg htime0] at hcast
    rw [hstored]
    refine h.setPhase hu rfl rfl rfl rfl ?_ ?_ ?_ fun e' hpast => ?_
    · exact (Function.forall_update_iff s.responseTime
        (p := fun _ x => 0 ≤ x ∧ x < 2147483648)).mpr
          ⟨⟨htime0, htime⟩, fun e' _ => h.value_range e'⟩
    · exact (Function.forall_update_iff s.responseTime
        (p := fun e' x => e'.Reaches x (s.responseTime e'))).mpr ⟨hkeeps, fun e' _ => hsame e'⟩
    · rw [hphase]
      cases e <;> rfl
    · rw [hphase]
      rcases UpdatePhase.past_after.mp hpast with rfl | hbefore
      · refine .inr ⟨?_, rfl⟩
        simp only [Function.update_self]
        exact .refl _ _
      · exact .inl hbefore
  · rename_i hphase
    cases hstep
    exact h.setPhase hu rfl rfl rfl rfl h.value_range hsame (by rw [hphase]; rfl)
      fun e _ => .inl (by rw [hphase]; trivial)
  · cases hstep

theorem lastPoll_le (hle : s.nextPoll ≤ s'.nextPoll) (phase : UpdatePhase) :
    s.lastPoll phase ≤ s'.lastPoll phase := by
  cases phase with
  | completed last => exact Nat.le_refl _
  | load e => exact hle
  | store e => exact hle
  | count => exact hle

theorem nextPoll_generateOpmonData (s : ResponseStatistics) :
    s.nextPoll ≤ s.generateOpmonData.nextPoll := by
  cases hpoll : s.poll with
  | responseTime e =>
    simp [generateOpmonData, nextPoll, hpoll, PollPhase.after_ne_handledRequests]
  | _ => simp [generateOpmonData, nextPoll, hpoll]

theorem Covered.exchange {current : Extreme} (h : s.Covered e time first last)
    (hpoll : s.poll = .responseTime current)
    (hrange : 0 ≤ s.responseTime e ∧ s.responseTime e < 2147483648) (hle : last ≤ last') :
    s.generateOpmonData.Covered e time first last' := by
  unfold generateOpmonData
  rw [hpoll]
  by_cases heq : e = current
  · subst heq
    have hnot : ¬ s.poll.Past e := by
      rw [hpoll]
      exact PollPhase.not_past_responseTime e
    cases h with
    | published i info hget hfirst hlast hreach =>
      exact .published i info hget hfirst (Nat.le_trans hlast hle) hreach
    | exchanged hpast => exact absurd hpast hnot
    | current hlast hreach =>
      rw [if_neg hnot] at hlast
      refine .exchanged (PollPhase.past_after.mpr (.inl rfl)) (Nat.le_trans hlast hle) ?_
      simp only [Function.update_self, toSize_of_nonneg hrange.1 hrange.2]
      exact hreach
  · refine h.mono rfl ?_ (fun _ => ?_) (fun hreach => ?_) hle
    · rw [hpoll]
      exact PollPhase.past_after.trans (or_iff_right heq)
    · simp only [Function.update_of_ne heq]
    · simp only [Function.update_of_ne heq]
      exact hreach

theorem Covered.publish (h : s.Covered e time first last) (hpoll : s.poll = .publish)
    (hfirst : first ≤ s.published.length) (hle : last ≤ last') :
    s.generateOpmonData.Covered e time first last' := by
  have hpast : s.poll.Past e := by
    rw [hpoll]
    trivial
  unfold generateOpmonData
  rw [hpoll]
  cases h with
  | published i info hget hfirst hlast hreach =>
    refine .published i info ?_ hfirst (Nat.le_trans hlast hle) hreach
    obtain ⟨hlt, -⟩ := List.getElem?_eq_some_iff.mp hget
    simp only [List.getElem?_append_left hlt, hget]
  | exchanged _ hlast hreach =>
    refine .published s.published.length s.info.withAverage ?_ hfirst (Nat.le_trans hlast hle) ?_
    · simp
    · rw [RequestHandlerInfo.withAverage_responseTime]
      exact hreach
  | current hlast hreach =>
    refine .current ?_ hreach
    rw [if_pos hpast] at hlast
    rw [if_neg (by exact id)]
    simp only [List.length_append, List.length_singleton]
    exact Nat.le_trans hlast hle

theorem Covered.poll (h : s.Covered e time first last)
    (hrange : 0 ≤ s.responseTime e ∧ s.responseTime e < 2147483648)
    (hfirst : first ≤ s.published.length) (hle : last ≤ last') :
    s.generateOpmonData.Covered e time first last' := by
  cases hpoll : s.poll with
  | handledRequests =>
    unfold generateOpmonData
    rw [hpoll]
    exact h.mono rfl (by rw [hpoll]; rfl) (by rw [hpoll]; exact False.elim) id hle
  | responseTimeAcc =>
    unfold generateOpmonData
    rw [hpoll]
    refine h.mono rfl ?_ (by rw [hpoll]; exact False.elim) id hle
    rw [hpoll]
    exact iff_of_false (by rintro ⟨-, ⟨⟩⟩) id
  | responseTime current => exact h.exchange hpoll hrange hle
  | publish => exact h.publish hpoll hfirst hle

theorem Tracked.poll (h : Tracked s) : Tracked s.generateOpmonData := by
  have hupdates : s.generateOpmonData.updates = s.updates := by
    unfold generateOpmonData
    split <;> rfl
  have hlength : s.published.length ≤ s.generateOpmonData.published.length := by
    unfold generateOpmonData
    split <;> simp
  refine ⟨fun e => ?_, fun u hu => ?_, fun u hu => ?_, fun u hu e hpast => ?_⟩
  · unfold generateOpmonData
    split
    · exact h.value_range e
    · exact h.value_range e
    · rename_i current _
      refine (Function.forall_update_iff s.responseTime
        (p := fun _ x => 0 ≤ x ∧ x < 2147483648)).mpr ⟨?_, fun e' _ => h.value_range e'⟩ e
      cases current <;> decide
    · exact h.value_range e
  all_goals rw [hupdates] at hu
  · exact h.time_range u hu
  · exact Nat.le_trans (h.first_le u hu) hlength
  · exact (h.covered u hu e hpast).poll (h.value_range e) (h.first_le u hu)
      (lastPoll_le s.nextPoll_generateOpmonData u.phase)

theorem Tracked.step {a : ResponseAction} (h : Tracked s) (hkeeps : s.KeepsExtremes a)
    (hstep : s.step a = some s') : Tracked s' := by
  cases a with
  | request time =>
    cases hstep
    exact h.request hkeeps
  | update j =>
    obtain ⟨u, hu, hupdate⟩ := Option.bind_eq_some_iff.mp hstep
    exact h.update hu (hkeeps u hu) hupdate
  | poll =>
    cases hstep
    exact h.poll

theorem Tracked.extremesPublished (h : Tracked s) : s.ExtremesPublished := by
  intro u hu last hphase hlt e
  have hcovered := h.covered u hu e (by rw [hphase]; trivial)
  rw [hphase] at hcovered
  cases hcovered with
  | published i info hinfo hfirst hlast hreach => exact ⟨i, info, hfirst, hlast, hinfo, hreach⟩
  | exchanged _ hlast => exact absurd (Nat.lt_of_le_of_lt hlast hlt) (Nat.lt_irrefl _)
  | current hlast =>
    simp only [lastPoll] at hlast
    split_ifs at hlast
    · omega
    · omega

end Steps

/-- In every run in which no store replaces a more extreme value, no extreme is lost. -/
theorem run_extremesPublished (as : List ResponseAction) (t : ResponseStatistics)
    (hkeeps : Execution.StepsMeet step KeepsExtremes init as)
    (hrun : Execution.run step init as = some t) : t.ExtremesPublished :=
  (Execution.run_invariant_of_stepsMeet (fun _ _ _ h hc hs => h.step hc hs) tracked_init hkeeps
    hrun).extremesPublished

/-- Two requests and two polls: the second request is about to store the minimum when the first poll
exchanges it. -/
def overlappingActions : List ResponseAction :=
  [.request 100, .request 50, .update 0, .update 0, .update 1, .update 0, .update 0, .update 0,
    .poll, .poll, .poll, .update 1, .poll, .poll, .update 1, .update 1,
    .poll, .poll, .poll, .poll, .poll]

def overlappingState : ResponseStatistics :=
  (Execution.run step init overlappingActions).get (by decide)

theorem run_extremesPublished_overlapping : overlappingState.ExtremesPublished :=
  run_extremesPublished overlappingActions overlappingState
    (Execution.stepsMeet_of_checkSteps (fun _ _ => of_decide_eq_true)
      (by decide : Execution.checkSteps step (fun s a => decide (s.KeepsExtremes a)) init
        overlappingActions = true))
    (Option.some_get _).symm

def lostStoreActions : List ResponseAction :=
  [.request 100, .request 50, .update 0, .update 1, .update 0, .update 1,
    .update 0, .update 0, .update 0, .update 1, .update 1, .update 1,
    .poll, .poll, .poll, .poll, .poll]

def lostStoreState : ResponseStatistics :=
  (Execution.run step init lostStoreActions).get (by decide)

theorem not_extremesPublished_of_lostStore :
    ¬ ∀ as t, Execution.run step init as = some t → t.ExtremesPublished := by
  intro h
  obtain ⟨i, info, -, hle, hinfo, hreach⟩ :=
    h lostStoreActions lostStoreState (Option.some_get _).symm ⟨100, 0, .completed 0⟩ (by decide) 0
      rfl (by decide) .max
  obtain rfl : i = 0 := Nat.le_zero.mp hle
  have hmax : (lostStoreState.published[0]?.map fun info => info.responseTime .max) = some 50 := by
    decide
  rw [hinfo] at hmax
  have heq : info.responseTime .max = 50 := Option.some.inj hmax
  rw [heq] at hreach
  revert hreach
  decide

end ResponseStatistics
end DataHandling

import DataHandling.Buffer.QueueRefinement
import DataHandling.Command.Readout
import DataHandling.Foundation.Execution

/-! The two threads of `force_pagefault`: the one that configures the buffer, and the prefiller
that it starts, releases, waits for and joins. They share a mutex and a condition variable; a wait
may be woken without a notification. -/

namespace DataHandling
open IterableQueueModel

/-- Where the thread in `force_pagefault` stands. -/
inductive CallerAt where
  | lockReady
  | setReady
  | unlockReady
  | notifyReady
  | lockDone
  | testDone
  | waiting
  | woken
  | unlockDone
  | joining
  | returned
  deriving DecidableEq

/-- Where the thread in `prefill_task` stands. -/
inductive PrefillerAt where
  | lock
  | testReady
  | waiting
  | woken
  | writing (left : ℕ)
  | flushing
  | popping (left : ℕ)
  | setDone
  | unlocking
  | notifying
  | finished
  deriving DecidableEq

inductive PrefillThread where
  | caller
  | prefiller
  deriving DecidableEq

/-- The buffer with its flags, the owner of `prefill_mutex_`, and the two threads. -/
structure PrefillSystem (T : Type) where
  buffer : AllocatedRing T
  mutex : Option PrefillThread
  caller : CallerAt
  prefiller : PrefillerAt

inductive PrefillAction where
  | step (thread : PrefillThread)
  | spuriousWakeup (thread : PrefillThread)
  deriving DecidableEq

def CallerAt.notified (c : CallerAt) : CallerAt := if c = .waiting then .woken else c

def PrefillerAt.notified (p : PrefillerAt) : PrefillerAt := if p = .waiting then .woken else p

def CallerAt.holdsMutex : CallerAt → Bool
  | .setReady | .unlockReady | .testDone | .unlockDone => true
  | _ => false

def PrefillerAt.holdsMutex : PrefillerAt → Bool
  | .testReady | .writing _ | .flushing | .popping _ | .setDone | .unlocking => true
  | _ => false

def CallerAt.hasReleased : CallerAt → Bool
  | .lockReady | .setReady => false
  | _ => true

def CallerAt.hasNotified : CallerAt → Bool
  | .lockReady | .setReady | .unlockReady | .notifyReady => false
  | _ => true

def PrefillerAt.isDone : PrefillerAt → Bool
  | .unlocking | .notifying | .finished => true
  | _ => false

/-- A bound on the steps that a thread still takes, if it is not woken for nothing. -/
def CallerAt.weight : CallerAt → ℕ
  | .lockReady => 11
  | .setReady => 10
  | .unlockReady => 9
  | .notifyReady => 8
  | .lockDone | .woken => 5
  | .testDone => 4
  | .waiting => 3
  | .unlockDone => 2
  | .joining => 1
  | .returned => 0

def PrefillerAt.weight (size : ℕ) : PrefillerAt → ℕ
  | .lock | .woken => 2 * size + 9
  | .testReady => 2 * size + 8
  | .waiting => 2 * size + 7
  | .writing left => size + left + 8
  | .flushing => size + 7
  | .popping left => left + 6
  | .setDone => 5
  | .unlocking => 4
  | .notifying => 3
  | .finished => 0

theorem CallerAt.notified_cases (c : CallerAt) :
    c ≠ .waiting ∧ c.notified = c ∨ c = .waiting ∧ c.notified = .woken := by
  by_cases h : c = .waiting
  · exact .inr ⟨h, if_pos h⟩
  · exact .inl ⟨h, if_neg h⟩

theorem PrefillerAt.notified_cases (p : PrefillerAt) :
    p ≠ .waiting ∧ p.notified = p ∨ p = .waiting ∧ p.notified = .woken := by
  by_cases h : p = .waiting
  · exact .inr ⟨h, if_pos h⟩
  · exact .inl ⟨h, if_neg h⟩

namespace PrefillSystem
variable {T : Type}

def start (buffer : AllocatedRing T) : PrefillSystem T := ⟨buffer, none, .lockReady, .lock⟩

def stepCaller (s : PrefillSystem T) : Option (PrefillSystem T) :=
  match s.caller with
  | .lockReady =>
    if s.mutex = none then some { s with mutex := some .caller, caller := .setReady } else none
  | .setReady =>
    some { s with buffer := { s.buffer with prefillReady := true }, caller := .unlockReady }
  | .unlockReady => some { s with mutex := none, caller := .notifyReady }
  | .notifyReady =>
    some { s with prefiller := s.prefiller.notified, caller := .lockDone }
  | .lockDone | .woken =>
    if s.mutex = none then some { s with mutex := some .caller, caller := .testDone } else none
  | .testDone =>
    -- the wait gives up the mutex
    if s.buffer.prefillDone then some { s with caller := .unlockDone }
    else some { s with mutex := none, caller := .waiting }
  | .waiting => none
  | .unlockDone => some { s with mutex := none, caller := .joining }
  | .joining => if s.prefiller = .finished then some { s with caller := .returned } else none
  | .returned => none

variable (valueInit : T)

def stepPrefiller (s : PrefillSystem T) : Option (PrefillSystem T) :=
  match s.prefiller with
  | .lock | .woken =>
    if s.mutex = none then some { s with mutex := some .prefiller, prefiller := .testReady }
    else none
  | .testReady =>
    if s.buffer.prefillReady then some { s with prefiller := .writing s.buffer.queue.capacity }
    else some { s with mutex := none, prefiller := .waiting }
  | .waiting => none
  | .writing 0 => some { s with prefiller := .flushing }
  | .writing (left + 1) =>
    some { s with
      buffer := { s.buffer with queue := (s.buffer.queue.write_ id valueInit).2 }
      prefiller := .writing left }
  | .flushing => some { s with prefiller := .popping s.buffer.queue.occupancy }
  | .popping 0 => some { s with prefiller := .setDone }
  | .popping (left + 1) =>
    s.buffer.queue.popFront.map fun queue =>
      { s with buffer := { s.buffer with queue := queue }, prefiller := .popping left }
  | .setDone =>
    some { s with buffer := { s.buffer with prefillDone := true }, prefiller := .unlocking }
  | .unlocking => some { s with mutex := none, prefiller := .notifying }
  | .notifying => some { s with caller := s.caller.notified, prefiller := .finished }
  | .finished => none

def step (s : PrefillSystem T) : PrefillAction → Option (PrefillSystem T)
  | .step .caller => s.stepCaller
  | .step .prefiller => s.stepPrefiller valueInit
  | .spuriousWakeup .caller =>
    if s.caller = .waiting then some { s with caller := .woken } else none
  | .spuriousWakeup .prefiller =>
    if s.prefiller = .waiting then some { s with prefiller := .woken } else none

def isSpurious : PrefillAction → Bool
  | .step _ => false
  | .spuriousWakeup _ => true

/-- When `force_pagefault` has returned, the prefiller is done with what it does in one piece in
`forcePagefault`; until then one of the two threads can go on, and only spurious wake-ups make it
take longer. -/
structure Prefills (buffer : AllocatedRing T) (as : List PrefillAction) (s : PrefillSystem T) :
    Prop where
  returned : s.caller = .returned → buffer.forcePagefault valueInit = some s.buffer ∧
    s.prefiller = .finished ∧ s.mutex = none ∧ Represents s.buffer.queue []
  progress : s.caller ≠ .returned → ∃ thread, (s.step valueInit (.step thread)).isSome
  bounded : as.length ≤ 2 * buffer.queue.size + 20 + 3 * as.countP isSpurious

def remaining (p : PrefillerAt) (q : IterableQueueModel T) : Option (IterableQueueModel T) :=
  match p with
  | .lock | .testReady | .waiting | .woken => prefillTask valueInit q
  | .writing left => (prefillWrites valueInit left q).flush
  | .flushing => q.flush
  | .popping left => pop left q
  | .setDone | .unlocking | .notifying | .finished => some q

def potential (s : PrefillSystem T) : ℕ :=
  s.caller.weight + s.prefiller.weight s.buffer.queue.size

structure Handshake (buffer : AllocatedRing T) (s : PrefillSystem T) : Prop where
  caller_holds : s.mutex = some .caller ↔ s.caller.holdsMutex = true
  prefiller_holds : s.mutex = some .prefiller ↔ s.prefiller.holdsMutex = true
  ready : s.caller.hasReleased = true → s.buffer.prefillReady = true
  done : s.prefiller.isDone = true → s.buffer.prefillDone = true
  -- no wake-up is lost
  prefiller_waits : s.prefiller = .waiting → s.caller.hasNotified = false
  caller_waits : s.caller = .waiting → s.prefiller ≠ .finished
  joined : s.caller = .returned → s.prefiller = .finished
  remaining_eq : remaining valueInit s.prefiller s.buffer.queue = prefillTask valueInit buffer.queue
  content : ∃ xs, Represents s.buffer.queue xs
  size_eq : s.buffer.queue.size = buffer.queue.size
  flags_eq : s.buffer.flags = buffer.flags
  recordsNull_eq : s.buffer.recordsNull = buffer.recordsNull

section Step
variable {valueInit} {buffer : AllocatedRing T} {s s' : PrefillSystem T}

theorem Handshake.moveCaller (h : Handshake valueInit buffer s) {mutex : Option PrefillThread}
    {caller : CallerAt} (hcaller : mutex = some .caller ↔ caller.holdsMutex = true)
    (hprefiller : mutex = some .prefiller ↔ s.mutex = some .prefiller)
    (hready : caller.hasReleased = true → s.buffer.prefillReady = true)
    (hnotified : s.prefiller = .waiting → caller.hasNotified = false)
    (hwaits : caller = .waiting → s.prefiller ≠ .finished)
    (hjoined : caller = .returned → s.prefiller = .finished) :
    Handshake valueInit buffer { s with mutex := mutex, caller := caller } :=
  ⟨hcaller, hprefiller.trans h.prefiller_holds, hready, h.done, hnotified, hwaits, hjoined,
    h.remaining_eq, h.content, h.size_eq, h.flags_eq, h.recordsNull_eq⟩

theorem Handshake.movePrefiller (h : Handshake valueInit buffer s) {mutex : Option PrefillThread}
    {prefiller : PrefillerAt} (hne : s.prefiller ≠ .finished) (hnext : prefiller ≠ .finished)
    (hcaller : mutex = some .caller ↔ s.mutex = some .caller)
    (hprefiller : mutex = some .prefiller ↔ prefiller.holdsMutex = true)
    (hdone : prefiller.isDone = true → s.buffer.prefillDone = true)
    (hwaits : prefiller = .waiting → s.caller.hasNotified = false)
    (hremaining : remaining valueInit prefiller s.buffer.queue =
      remaining valueInit s.prefiller s.buffer.queue) :
    Handshake valueInit buffer { s with mutex := mutex, prefiller := prefiller } :=
  ⟨hcaller.trans h.caller_holds, hprefiller, h.ready, hdone, hwaits, fun _ => hnext,
    fun hreturned => absurd (h.joined hreturned) hne, hremaining.trans h.remaining_eq, h.content,
    h.size_eq, h.flags_eq, h.recordsNull_eq⟩

theorem Handshake.moveRing (h : Handshake valueInit buffer s) {prefiller : PrefillerAt}
    {queue : IterableQueueModel T} (hbefore : s.prefiller.holdsMutex = true)
    (hafter : prefiller.holdsMutex = true) (hdone : prefiller.isDone = false)
    (hremaining : remaining valueInit prefiller queue =
      remaining valueInit s.prefiller s.buffer.queue)
    (hcontent : ∃ xs, Represents queue xs) (hsize : queue.size = s.buffer.queue.size) :
    Handshake valueInit buffer
      { s with buffer := { s.buffer with queue := queue }, prefiller := prefiller } where
  caller_holds := h.caller_holds
  prefiller_holds := h.prefiller_holds.trans (iff_of_true hbefore hafter)
  ready := h.ready
  done hnow := by
    have hnow : prefiller.isDone = true := hnow
    rw [hdone] at hnow
    cases hnow
  prefiller_waits hnow := by
    have hnow : prefiller = .waiting := hnow
    rw [hnow] at hafter
    cases hafter
  caller_waits _ hnow := by
    have hnow : prefiller = .finished := hnow
    rw [hnow] at hafter
    cases hafter
  joined hreturned := by
    rw [h.joined hreturned] at hbefore
    cases hbefore
  remaining_eq := hremaining.trans h.remaining_eq
  content := hcontent
  size_eq := hsize.trans h.size_eq
  flags_eq := h.flags_eq
  recordsNull_eq := h.recordsNull_eq

theorem Handshake.caller_releases (h : Handshake valueInit buffer s)
    (hholds : s.caller.holdsMutex = true) :
    none = some PrefillThread.prefiller ↔ s.mutex = some .prefiller := by
  rw [h.caller_holds.mpr hholds]
  exact iff_of_false nofun nofun

theorem Handshake.prefiller_releases (h : Handshake valueInit buffer s)
    (hholds : s.prefiller.holdsMutex = true) :
    none = some PrefillThread.caller ↔ s.mutex = some .caller := by
  rw [h.prefiller_holds.mpr hholds]
  exact iff_of_false nofun nofun

theorem Handshake.not_waiting (h : Handshake valueInit buffer s)
    (hnotified : s.caller.hasNotified = true) : s.prefiller ≠ .waiting := by
  intro hwaiting
  rw [h.prefiller_waits hwaiting] at hnotified
  cases hnotified

theorem Handshake.stepCaller (h : Handshake valueInit buffer s) (hstep : s.stepCaller = some s') :
    Handshake valueInit buffer s' := by
  cases hat : s.caller with
  | lockReady =>
    rw [PrefillSystem.stepCaller, hat] at hstep
    dsimp only at hstep
    split_ifs at hstep with hfree
    cases hstep
    refine h.moveCaller (iff_of_true rfl rfl) ?_ nofun (fun _ => rfl) nofun nofun
    rw [hfree]
    exact iff_of_false nofun nofun
  | setReady =>
    rw [PrefillSystem.stepCaller, hat] at hstep
    cases hstep
    exact ⟨h.caller_holds.trans (by rw [hat]; rfl), h.prefiller_holds, fun _ => rfl, h.done,
      fun _ => rfl, nofun, nofun, h.remaining_eq, h.content, h.size_eq, h.flags_eq,
      h.recordsNull_eq⟩
  | unlockReady =>
    have hready := h.ready (by rw [hat]; rfl)
    rw [PrefillSystem.stepCaller, hat] at hstep
    cases hstep
    exact h.moveCaller (iff_of_false nofun nofun) (h.caller_releases (by rw [hat]; rfl))
      (fun _ => hready) (fun _ => rfl) nofun nofun
  | notifyReady =>
    have hready := h.ready (by rw [hat]; rfl)
    rw [PrefillSystem.stepCaller, hat] at hstep
    cases hstep
    have hholds : s.mutex = some .caller ↔ CallerAt.lockDone.holdsMutex = true :=
      h.caller_holds.trans (by rw [hat]; rfl)
    rcases s.prefiller.notified_cases with ⟨hwaiting, hsame⟩ | ⟨hwaiting, hwoken⟩
    · rw [hsame]
      exact h.moveCaller hholds Iff.rfl (fun _ => hready) (fun hnow => absurd hnow hwaiting) nofun
        nofun
    · rw [hwoken]
      refine ⟨hholds, h.prefiller_holds.trans (by rw [hwaiting]; rfl), fun _ => hready, nofun,
        nofun, nofun, nofun, ?_, h.content, h.size_eq, h.flags_eq, h.recordsNull_eq⟩
      rw [← h.remaining_eq, hwaiting]
      rfl
  | lockDone | woken =>
    have hready := h.ready (by rw [hat]; rfl)
    have hnotified := h.not_waiting (by rw [hat]; rfl)
    rw [PrefillSystem.stepCaller, hat] at hstep
    dsimp only at hstep
    split_ifs at hstep with hfree
    cases hstep
    refine h.moveCaller (iff_of_true rfl rfl) ?_ (fun _ => hready)
      (fun hwaiting => absurd hwaiting hnotified) nofun nofun
    rw [hfree]
    exact iff_of_false nofun nofun
  | testDone =>
    have hready := h.ready (by rw [hat]; rfl)
    have hnotified := h.not_waiting (by rw [hat]; rfl)
    rw [PrefillSystem.stepCaller, hat] at hstep
    dsimp only at hstep
    split_ifs at hstep with hdone
    · cases hstep
      refine h.moveCaller (h.caller_holds.trans (by rw [hat]; rfl)) Iff.rfl (fun _ => hready)
        (fun hwaiting => absurd hwaiting hnotified) nofun nofun
    · cases hstep
      refine h.moveCaller (iff_of_false nofun nofun) (h.caller_releases (by rw [hat]; rfl))
        (fun _ => hready) (fun hwaiting => absurd hwaiting hnotified) (fun _ hfinished => ?_) nofun
      exact hdone (h.done (by rw [hfinished]; rfl))
  | waiting | returned =>
    rw [PrefillSystem.stepCaller, hat] at hstep
    cases hstep
  | unlockDone =>
    have hready := h.ready (by rw [hat]; rfl)
    have hnotified := h.not_waiting (by rw [hat]; rfl)
    rw [PrefillSystem.stepCaller, hat] at hstep
    cases hstep
    exact h.moveCaller (iff_of_false nofun nofun) (h.caller_releases (by rw [hat]; rfl))
      (fun _ => hready) (fun hwaiting => absurd hwaiting hnotified) nofun nofun
  | joining =>
    have hready := h.ready (by rw [hat]; rfl)
    rw [PrefillSystem.stepCaller, hat] at hstep
    dsimp only at hstep
    split_ifs at hstep with hfinished
    cases hstep
    refine h.moveCaller (h.caller_holds.trans (by rw [hat]; rfl)) Iff.rfl (fun _ => hready)
      (fun hwaiting => ?_) nofun (fun _ => hfinished)
    rw [hfinished] at hwaiting
    cases hwaiting

theorem Handshake.testReady (h : Handshake valueInit buffer s) (hat : s.prefiller = .testReady)
    (hstep : s.stepPrefiller valueInit = some s') : Handshake valueInit buffer s' := by
  rw [PrefillSystem.stepPrefiller, hat] at hstep
  dsimp only at hstep
  split_ifs at hstep with hready
  · cases hstep
    exact h.moveRing (by rw [hat]; rfl) rfl rfl (by rw [hat]; rfl) h.content rfl
  · cases hstep
    refine h.movePrefiller (by rw [hat]; rintro ⟨⟩) (by rintro ⟨⟩)
      (h.prefiller_releases (by rw [hat]; rfl)) (iff_of_false (by rintro ⟨⟩) (by rintro ⟨⟩))
      (by rintro ⟨⟩) (fun _ => ?_) (by rw [hat]; rfl)
    -- the caller has not come to its notification
    have hbefore : s.caller.hasReleased = false :=
      Bool.eq_false_iff.mpr fun hreleased => hready (h.ready hreleased)
    cases hcaller : s.caller with
    | lockReady | setReady => rfl
    | _ =>
      rw [hcaller] at hbefore
      cases hbefore

theorem Handshake.writing (h : Handshake valueInit buffer s) {left : ℕ}
    (hat : s.prefiller = .writing left)
    (hstep : s.stepPrefiller valueInit = some s') : Handshake valueInit buffer s' := by
  rw [PrefillSystem.stepPrefiller, hat] at hstep
  cases left with
  | zero =>
    cases hstep
    exact h.moveRing (by rw [hat]; rfl) rfl rfl (by rw [hat]; rfl) h.content rfl
  | succ left =>
    cases hstep
    obtain ⟨xs, hxs⟩ := h.content
    exact h.moveRing (by rw [hat]; rfl) rfl rfl (by rw [hat]; rfl) (hxs.exists_write valueInit)
      (size_write s.buffer.queue valueInit)

theorem Handshake.popping (h : Handshake valueInit buffer s) {left : ℕ}
    (hat : s.prefiller = .popping left)
    (hstep : s.stepPrefiller valueInit = some s') : Handshake valueInit buffer s' := by
  rw [PrefillSystem.stepPrefiller, hat] at hstep
  cases left with
  | zero =>
    cases hstep
    refine h.moveRing (by rw [hat]; rfl) rfl rfl ?_ h.content rfl
    rw [hat, remaining, remaining, pop]
  | succ left =>
    obtain ⟨queue, hpop, rfl⟩ := Option.map_eq_some_iff.mp hstep
    obtain ⟨xs, hxs⟩ := h.content
    have hone : pop 1 s.buffer.queue = some queue := by
      rw [pop, hpop]
      rfl
    obtain ⟨x, ys, -, hys⟩ := hxs.pop_one hone
    refine h.moveRing (by rw [hat]; rfl) rfl rfl ?_ ⟨ys, hys⟩ (size_popFront hpop)
    rw [hat, remaining, remaining, pop, hpop]
    rfl

theorem Handshake.setDone (h : Handshake valueInit buffer s) (hat : s.prefiller = .setDone)
    (hstep : s.stepPrefiller valueInit = some s') : Handshake valueInit buffer s' := by
  have hremaining := h.remaining_eq
  rw [hat] at hremaining
  have hholds : s.mutex = some .prefiller ↔ PrefillerAt.unlocking.holdsMutex = true :=
    h.prefiller_holds.trans (by rw [hat]; rfl)
  have hjoined : s.caller ≠ .returned := fun hreturned => by
    rw [h.joined hreturned] at hat
    cases hat
  rw [PrefillSystem.stepPrefiller, hat] at hstep
  cases hstep
  exact ⟨h.caller_holds, hholds, h.ready, fun _ => rfl, by rintro ⟨⟩, fun _ => by rintro ⟨⟩,
    fun hreturned => absurd hreturned hjoined, hremaining, h.content, h.size_eq, h.flags_eq,
    h.recordsNull_eq⟩

theorem Handshake.unlocking (h : Handshake valueInit buffer s) (hat : s.prefiller = .unlocking)
    (hstep : s.stepPrefiller valueInit = some s') : Handshake valueInit buffer s' := by
  have hdone := h.done (by rw [hat]; rfl)
  rw [PrefillSystem.stepPrefiller, hat] at hstep
  cases hstep
  exact h.movePrefiller (by rw [hat]; rintro ⟨⟩) (by rintro ⟨⟩)
    (h.prefiller_releases (by rw [hat]; rfl)) (iff_of_false (by rintro ⟨⟩) (by rintro ⟨⟩))
    (fun _ => hdone) (by rintro ⟨⟩) (by rw [hat]; rfl)

theorem Handshake.notifying (h : Handshake valueInit buffer s) (hat : s.prefiller = .notifying)
    (hstep : s.stepPrefiller valueInit = some s') : Handshake valueInit buffer s' := by
  have hdone := h.done (by rw [hat]; rfl)
  have hremaining := h.remaining_eq
  rw [hat] at hremaining
  have hholds : s.mutex = some .prefiller ↔ PrefillerAt.finished.holdsMutex = true :=
    h.prefiller_holds.trans (by rw [hat]; rfl)
  rw [PrefillSystem.stepPrefiller, hat] at hstep
  cases hstep
  rcases s.caller.notified_cases with ⟨hwaiting, hsame⟩ | ⟨hwaiting, hwoken⟩
  · rw [hsame]
    exact ⟨h.caller_holds, hholds, h.ready, fun _ => hdone, by rintro ⟨⟩,
      fun hnow => absurd hnow hwaiting, fun _ => rfl, hremaining, h.content, h.size_eq,
      h.flags_eq, h.recordsNull_eq⟩
  · rw [hwoken]
    refine ⟨h.caller_holds.trans (by rw [hwaiting]; rfl), hholds, fun _ => ?_, fun _ => hdone,
      by rintro ⟨⟩, by rintro ⟨⟩, fun _ => rfl, hremaining, h.content, h.size_eq, h.flags_eq,
      h.recordsNull_eq⟩
    exact h.ready (by rw [hwaiting]; rfl)

theorem Handshake.stepPrefiller (h : Handshake valueInit buffer s)
    (hstep : s.stepPrefiller valueInit = some s') : Handshake valueInit buffer s' := by
  cases hat : s.prefiller with
  | lock | woken =>
    rw [PrefillSystem.stepPrefiller, hat] at hstep
    dsimp only at hstep
    split_ifs at hstep with hfree
    cases hstep
    refine h.movePrefiller (by rw [hat]; rintro ⟨⟩) (by rintro ⟨⟩) ?_ (iff_of_true rfl rfl)
      (by rintro ⟨⟩) (by rintro ⟨⟩) ?_
    · rw [hfree]
      exact iff_of_false (by rintro ⟨⟩) (by rintro ⟨⟩)
    · rw [hat]
      rfl
  | testReady => exact h.testReady hat hstep
  | writing left => exact h.writing hat hstep
  | flushing =>
    rw [PrefillSystem.stepPrefiller, hat] at hstep
    cases hstep
    exact h.moveRing (by rw [hat]; rfl) rfl rfl (by rw [hat]; rfl) h.content rfl
  | popping left => exact h.popping hat hstep
  | setDone => exact h.setDone hat hstep
  | unlocking => exact h.unlocking hat hstep
  | notifying => exact h.notifying hat hstep
  | waiting | finished =>
    rw [PrefillSystem.stepPrefiller, hat] at hstep
    cases hstep

theorem Handshake.step (h : Handshake valueInit buffer s) {a : PrefillAction}
    (hstep : s.step valueInit a = some s') : Handshake valueInit buffer s' := by
  cases a with
  | step thread =>
    cases thread with
    | caller => exact h.stepCaller hstep
    | prefiller => exact h.stepPrefiller hstep
  | spuriousWakeup thread =>
    cases thread with
    | caller =>
      rw [PrefillSystem.step] at hstep
      split_ifs at hstep with hwaiting
      cases hstep
      have hready := h.ready (by rw [hwaiting]; rfl)
      refine h.moveCaller (h.caller_holds.trans (by rw [hwaiting]; rfl)) Iff.rfl (fun _ => hready)
        (fun hnow => ?_) nofun nofun
      have hbefore := h.prefiller_waits hnow
      rw [hwaiting] at hbefore
      cases hbefore
    | prefiller =>
      rw [PrefillSystem.step] at hstep
      split_ifs at hstep with hwaiting
      cases hstep
      refine h.movePrefiller (by rw [hwaiting]; nofun) nofun Iff.rfl
        (h.prefiller_holds.trans (by rw [hwaiting]; rfl)) nofun nofun ?_
      rw [hwaiting]
      rfl

section Potential
variable (h : Handshake valueInit buffer s) (hsize : buffer.queue.size < 2147483648)

theorem weight_caller_notified (c : CallerAt) : c.notified.weight ≤ c.weight + 2 := by
  rcases c.notified_cases with ⟨_, hsame⟩ | ⟨hwaiting, hwoken⟩
  · rw [hsame]
    exact Nat.le_add_right _ _
  · rw [hwoken, hwaiting]
    exact Nat.le_refl _

theorem weight_prefiller_notified (size : ℕ) (p : PrefillerAt) :
    p.notified.weight size ≤ p.weight size + 2 := by
  rcases p.notified_cases with ⟨_, hsame⟩ | ⟨hwaiting, hwoken⟩
  · rw [hsame]
    exact Nat.le_add_right _ _
  · rw [hwoken, hwaiting]
    exact Nat.le_refl _

theorem potential_stepCaller (hstep : s.stepCaller = some s') : s'.potential + 1 ≤ s.potential := by
  have hnotified := weight_prefiller_notified s.buffer.queue.size s.prefiller
  rw [potential, potential]
  cases hat : s.caller with
  | lockReady | lockDone | woken | joining | testDone =>
    rw [PrefillSystem.stepCaller, hat] at hstep
    dsimp only at hstep
    split_ifs at hstep <;>
    · cases hstep
      simp only [CallerAt.weight]
      omega
  | setReady | unlockReady | unlockDone | notifyReady =>
    rw [PrefillSystem.stepCaller, hat] at hstep
    cases hstep
    simp only [CallerAt.weight]
    omega
  | waiting | returned =>
    rw [PrefillSystem.stepCaller, hat] at hstep
    cases hstep

include h hsize in
theorem potential_stepPrefiller (hstep : s.stepPrefiller valueInit = some s') :
    s'.potential + 1 ≤ s.potential := by
  have hnotified := weight_caller_notified s.caller
  obtain ⟨xs, hxs⟩ := h.content
  have hlength := hxs.length_lt
  have hoccupancy := hxs.occupancy_eq (h.size_eq ▸ hsize)
  have hcapacity : s.buffer.queue.capacity < s.buffer.queue.size := by
    have htwo := hxs.two_le_size
    have hlt := hxs.size_lt
    unfold capacity MachineInt.u32
    omega
  rw [potential, potential]
  cases hat : s.prefiller with
  | lock | woken | testReady =>
    rw [PrefillSystem.stepPrefiller, hat] at hstep
    dsimp only at hstep
    split_ifs at hstep <;>
    · cases hstep
      simp only [PrefillerAt.weight]
      omega
  | writing left =>
    rw [PrefillSystem.stepPrefiller, hat] at hstep
    cases left with
    | zero =>
      cases hstep
      simp only [PrefillerAt.weight]
      omega
    | succ left =>
      cases hstep
      have hsame : (s.buffer.queue.write_ id valueInit).2.size = s.buffer.queue.size :=
        size_write s.buffer.queue valueInit
      simp only [PrefillerAt.weight, hsame]
      omega
  | popping left =>
    rw [PrefillSystem.stepPrefiller, hat] at hstep
    cases left with
    | zero =>
      cases hstep
      simp only [PrefillerAt.weight]
      omega
    | succ left =>
      obtain ⟨queue, hpop, rfl⟩ := Option.map_eq_some_iff.mp hstep
      simp only [PrefillerAt.weight]
      omega
  | flushing | setDone | unlocking | notifying =>
    rw [PrefillSystem.stepPrefiller, hat] at hstep
    cases hstep
    simp only [PrefillerAt.weight]
    omega
  | waiting | finished =>
    rw [PrefillSystem.stepPrefiller, hat] at hstep
    cases hstep

include h hsize in
theorem potential_step {a : PrefillAction} (hstep : s.step valueInit a = some s') :
    s'.potential + 1 ≤ s.potential + if isSpurious a then 3 else 0 := by
  cases a with
  | step thread =>
    cases thread with
    | caller => exact potential_stepCaller hstep
    | prefiller => exact potential_stepPrefiller h hsize hstep
  | spuriousWakeup thread =>
    cases thread <;>
    · rw [PrefillSystem.step] at hstep
      split_ifs at hstep with hwaiting
      cases hstep
      simp only [potential, hwaiting, isSpurious, CallerAt.weight, PrefillerAt.weight, if_true]
      omega

end Potential

section Progress

theorem Handshake.caller_proceeds (h : Handshake valueInit buffer s)
    (hmutex : s.mutex = some .caller) : s.stepCaller.isSome := by
  have hholds := h.caller_holds.mp hmutex
  rw [PrefillSystem.stepCaller]
  cases hat : s.caller with
  | setReady | unlockReady | unlockDone => rfl
  | testDone =>
    dsimp only
    split_ifs <;> rfl
  | _ =>
    rw [hat] at hholds
    cases hholds

theorem Handshake.prefiller_proceeds (h : Handshake valueInit buffer s)
    (hprefill : (prefillTask valueInit buffer.queue).isSome) (hmutex : s.mutex = some .prefiller) :
    (s.stepPrefiller valueInit).isSome := by
  have hholds := h.prefiller_holds.mp hmutex
  rw [PrefillSystem.stepPrefiller]
  cases hat : s.prefiller with
  | flushing | setDone | unlocking => rfl
  | testReady =>
    dsimp only
    split_ifs <;> rfl
  | writing left => cases left <;> rfl
  | popping left =>
    cases left with
    | zero => rfl
    | succ left =>
      -- the flush pops as much as there is
      rw [← h.remaining_eq, hat, remaining, pop, Option.isSome_bind] at hprefill
      cases hpop : s.buffer.queue.popFront with
      | some queue => rfl
      | none =>
        rw [hpop] at hprefill
        cases hprefill
  | _ =>
    rw [hat] at hholds
    cases hholds

theorem prefiller_proceeds_of_free (hmutex : s.mutex = none)
    (hholds : s.prefiller.holdsMutex ≠ true) (hwaits : s.prefiller ≠ .waiting)
    (hfinished : s.prefiller ≠ .finished) : (s.stepPrefiller valueInit).isSome := by
  rw [PrefillSystem.stepPrefiller]
  cases hat : s.prefiller with
  | lock | woken =>
    dsimp only
    rw [if_pos hmutex]
    rfl
  | notifying => rfl
  | waiting => exact absurd hat hwaits
  | finished => exact absurd hat hfinished
  | _ =>
    rw [hat] at hholds
    exact absurd rfl hholds

/-- Until the caller has returned, one of the threads can go on. -/
theorem Handshake.progress (h : Handshake valueInit buffer s)
    (hprefill : (prefillTask valueInit buffer.queue).isSome) (hne : s.caller ≠ .returned) :
    ∃ thread, (s.step valueInit (.step thread)).isSome := by
  cases hmutex : s.mutex with
  | some thread =>
    cases thread with
    | caller => exact ⟨.caller, h.caller_proceeds hmutex⟩
    | prefiller => exact ⟨.prefiller, h.prefiller_proceeds hprefill hmutex⟩
  | none =>
    have hcaller : s.caller.holdsMutex ≠ true := fun hholds => by
      rw [h.caller_holds.mpr hholds] at hmutex
      cases hmutex
    have hprefiller : s.prefiller.holdsMutex ≠ true := fun hholds => by
      rw [h.prefiller_holds.mpr hholds] at hmutex
      cases hmutex
    cases hat : s.caller with
    | lockReady | lockDone | woken =>
      refine ⟨.caller, ?_⟩
      rw [PrefillSystem.step, PrefillSystem.stepCaller, hat]
      dsimp only
      rw [if_pos hmutex]
      rfl
    | notifyReady =>
      refine ⟨.caller, ?_⟩
      rw [PrefillSystem.step, PrefillSystem.stepCaller, hat]
      rfl
    | waiting =>
      exact ⟨.prefiller, prefiller_proceeds_of_free hmutex hprefiller
        (h.not_waiting (by rw [hat]; rfl)) (h.caller_waits hat)⟩
    | joining =>
      by_cases hfinished : s.prefiller = .finished
      · refine ⟨.caller, ?_⟩
        rw [PrefillSystem.step, PrefillSystem.stepCaller, hat]
        dsimp only
        rw [if_pos hfinished]
        rfl
      · exact ⟨.prefiller, prefiller_proceeds_of_free hmutex hprefiller
          (h.not_waiting (by rw [hat]; rfl)) hfinished⟩
    | returned => exact absurd hat hne
    | setReady | unlockReady | testDone | unlockDone =>
      rw [hat] at hcaller
      exact absurd rfl hcaller

end Progress

theorem handshake_start (valueInit : T) {buffer : AllocatedRing T} {xs : List T}
    (hring : Represents buffer.queue xs) : Handshake valueInit buffer (start buffer) where
  caller_holds := iff_of_false nofun nofun
  prefiller_holds := iff_of_false nofun nofun
  ready := nofun
  done := nofun
  prefiller_waits := nofun
  caller_waits := nofun
  joined := nofun
  remaining_eq := rfl
  content := ⟨xs, hring⟩
  size_eq := rfl
  flags_eq := rfl
  recordsNull_eq := rfl

/-- However the two threads are scheduled, and whatever flags an earlier configuration has left. -/
theorem run_prefills (valueInit : T) (buffer : AllocatedRing T) (xs : List T)
    (hring : Represents buffer.queue xs) (hsize : buffer.queue.size < 2147483648)
    (as : List PrefillAction) (s : PrefillSystem T)
    (hrun : Execution.run (step valueInit) (start buffer) as = some s) :
    Prefills valueInit buffer as s := by
  have hstart := handshake_start valueInit hring
  have h : Handshake valueInit buffer s :=
    Execution.run_invariant (fun _ _ _ h hstep => h.step hstep) hstart hrun
  obtain ⟨ys, hys, hfill⟩ := prefillWrites_represents valueInit buffer.queue.capacity hring
  obtain ⟨queue, hqueue, hempty, -⟩ := hys.flush_eq (by rw [hfill]; exact hsize)
  have hprefill : prefillTask valueInit buffer.queue = some queue := hqueue
  refine ⟨fun hreturned => ?_, h.progress (by rw [hprefill]; rfl), ?_⟩
  · have hfinished := h.joined hreturned
    have hremaining := h.remaining_eq
    rw [hfinished, remaining, hprefill, Option.some.injEq] at hremaining
    have hready := h.ready (by rw [hreturned]; rfl)
    have hdone := h.done (by rw [hfinished]; rfl)
    have hflags := h.flags_eq
    have hnull := h.recordsNull_eq
    refine ⟨?_, hfinished, ?_, hremaining ▸ hempty⟩
    · have hbuffer : s.buffer = ⟨s.buffer.queue, s.buffer.flags, s.buffer.recordsNull,
          s.buffer.prefillReady, s.buffer.prefillDone⟩ := rfl
      rw [AllocatedRing.forcePagefault, hprefill, Option.map_some, hbuffer, hremaining, hflags,
        hnull, hready, hdone]
    · cases hmutex : s.mutex with
      | none => rfl
      | some thread =>
        cases thread with
        | caller =>
          have hholds := h.caller_holds.mp hmutex
          rw [hreturned] at hholds
          cases hholds
        | prefiller =>
          have hholds := h.prefiller_holds.mp hmutex
          rw [hfinished] at hholds
          cases hholds
  · have hlength := Execution.run_length_le potential isSpurious (I := Handshake valueInit buffer)
      (fun _ _ _ h hstep => h.step hstep)
      (fun _ _ _ h hstep => potential_step h hsize hstep) hstart hrun
    have hpotential : (start buffer).potential = 2 * buffer.queue.size + 20 := by
      show 11 + (2 * buffer.queue.size + 9) = _
      omega
    omega

end Step

def smallBuffer : AllocatedRing ℕ := ⟨fresh ℕ 4, .default, false, false, false⟩

def wakingActions : List PrefillAction :=
  List.replicate 2 (.step .prefiller) ++ [.spuriousWakeup .prefiller] ++
    List.replicate 2 (.step .prefiller) ++ List.replicate 6 (.step .caller) ++
    List.replicate 14 (.step .prefiller) ++ List.replicate 4 (.step .caller)

def wakingState : PrefillSystem ℕ :=
  (Execution.run (step 0) (start smallBuffer) wakingActions).get (by decide +kernel)

theorem run_prefills_waking :
    Prefills 0 smallBuffer wakingActions wakingState ∧ wakingState.caller = .returned :=
  ⟨run_prefills 0 smallBuffer [] (represents_fresh (by decide) (by decide)) (by decide)
    wakingActions wakingState (Option.some_get _).symm, by decide +kernel⟩

end PrefillSystem
end DataHandling

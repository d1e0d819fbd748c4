import DataHandling.Buffer.BinarySearch
import DataHandling.Chunk
import DataHandling.Foundation.Counting
import DataHandling.Foundation.Execution
import DataHandling.Request.CleanupGate

/-! The gate between requests and cleanup: in every reachable state the counter of running
requests is exact, nothing is popped while it is positive, what a data request has read of the
ring stays in place, and no wake-up is lost. -/

namespace DataHandling
open ReadoutType IterableQueueModel Counting

/-- What a thread at work relies on: a ring that it saw to be non-empty still is, the pointers
it holds are not null, and its pieces lie in slots that hold the elements they were cut from. -/
structure SectionWork.Safe {T : Type} (q : IterableQueueModel T) (w : SectionWork T) : Prop where
  nonempty : w.sawData = true → q.readIndex ≠ q.writeIndex
  pointers : ∀ p ∈ w.pointers, ∃ slot, p = some slot ∧
    (q.size ≤ 2147483648 → (q.records slot).isSome)
  pieces : ∀ p ∈ w.pieces, q.records p.1.iterator = some p.2

def GateThread.pendingWork {T : Type} : GateThread T → Option (SectionWork T)
  | .parked work | .woken work | .entered work => some work
  | .outside | .working _ | .left => none

def SectionWork.hasBegun {T : Type} (w : SectionWork T) : Bool :=
  w.sawData || !w.pointers.isEmpty || !w.pieces.isEmpty

theorem SectionWork.safe_of_hasBegun_eq_false {T : Type} {q : IterableQueueModel T}
    {w : SectionWork T} (h : w.hasBegun = false) : w.Safe q := by
  simp only [hasBegun, Bool.or_eq_false_iff, Bool.not_eq_false', List.isEmpty_iff] at h
  obtain ⟨⟨hdata, hpointers⟩, hpieces⟩ := h
  exact ⟨by simp [hdata], by simp [hpointers], by simp [hpieces]⟩

namespace GateSystem
variable {T : Type}

theorem write_nonempty {q : IterableQueueModel T} (payload : T)
    (hne : q.readIndex ≠ q.writeIndex) :
    (q.write payload).2.readIndex ≠ (q.write payload).2.writeIndex := by
  rw [write]
  split_ifs with hroom
  · exact fun heq => hroom heq.symm
  · exact hne

section Ring
variable {q : IterableQueueModel T} {xs : List T} (h : Represents q xs)
include h

theorem write_records {slot : ℕ} {x : T} (payload : T) (hx : q.records slot = some x) :
    (q.write payload).2.records slot = some x := by
  rw [h.write_eq_ite]
  split_ifs with hroom
  · have hne : slot ≠ q.writeIndex := by
      rintro rfl
      have hfree := h.free q.writeIndex fun i hi heq => ?_
      · rw [hfree] at hx
        cases hx
      · rw [h.write_eq] at heq
        have := Cyclic.slot_inj h.read_lt h.length_lt (Nat.lt_trans hi h.length_lt) heq
        omega
    rw [placeBack_records, Function.update_of_ne hne]
    exact hx
  · exact hx

theorem front_isSome (hne : q.readIndex ≠ q.writeIndex) :
    ∃ slot, q.front = some slot ∧ (q.size ≤ 2147483648 → (q.records slot).isSome) := by
  have hxs : xs ≠ [] := fun heq => hne (h.readIndex_eq_writeIndex_iff.mpr heq)
  have hfront := h.front_records
  rw [front, if_neg hne, Option.bind_some, List.head?_eq_some_head hxs] at hfront
  refine ⟨q.readIndex, if_neg hne, fun _ => ?_⟩
  rw [hfront]
  rfl

theorem back_isSome (hne : q.readIndex ≠ q.writeIndex) :
    ∃ slot, q.back = some slot ∧ (q.size ≤ 2147483648 → (q.records slot).isSome) := by
  have hxs : xs ≠ [] := fun heq => hne (h.readIndex_eq_writeIndex_iff.mpr heq)
  refine ⟨_, if_neg (Ne.symm hne), fun hsize => ?_⟩
  have hback := h.back_records hsize
  rw [back, if_neg (Ne.symm hne), Option.bind_some, List.getLast?_eq_some_getLast hxs] at hback
  rw [hback]
  rfl

theorem safe_write {w : SectionWork T} (payload : T) (hw : w.Safe q) :
    w.Safe (q.write payload).2 where
  nonempty := fun hdata => write_nonempty payload (hw.nonempty hdata)
  pointers := by
    intro p hp
    obtain ⟨slot, rfl, hslot⟩ := hw.pointers p hp
    refine ⟨slot, rfl, fun hsize => ?_⟩
    rw [size_write] at hsize
    obtain ⟨x, hx⟩ := Option.isSome_iff_exists.mp (hslot hsize)
    rw [write_records h payload hx]
    rfl
  pieces := fun p hp => write_records h payload (hw.pieces p hp)

variable [ReadoutType T] {conf : GateConf T}

theorem safe_workStep {registry : FrameErrorRegistry} {w w' : SectionWork T} (hw : w.Safe q)
    (hstep : workStep conf q registry w = some w') : w'.Safe q := by
  obtain ⟨hnonempty, hpointers, hpieces⟩ := hw
  cases w with
  | recorderSearch ts =>
    obtain ⟨it, _, rfl⟩ := Option.map_eq_some_iff.mp hstep
    exact ⟨by simp [SectionWork.sawData], by simp [SectionWork.pointers],
      by simp [SectionWork.pieces]⟩
  | atOccupancy b e =>
    rw [workStep] at hstep
    split_ifs at hstep with hocc
    · cases hstep
      exact ⟨by simp [SectionWork.sawData], by simp [SectionWork.pointers],
        by simp [SectionWork.pieces]⟩
    · cases hstep
      have hne : q.readIndex ≠ q.writeIndex := fun heq =>
        hocc (h.occupancy_eq_zero_iff.mpr (h.readIndex_eq_writeIndex_iff.mp heq))
      exact ⟨fun _ => hne, by simp [SectionWork.pointers], by simp [SectionWork.pieces]⟩
  | atFront b e =>
    cases hstep
    have hfront := front_isSome h (hnonempty rfl)
    exact ⟨fun _ => hnonempty rfl, by simpa [SectionWork.pointers] using hfront,
      by simp [SectionWork.pieces]⟩
  | atBack b e front =>
    cases hstep
    have hback := back_isSome h (hnonempty rfl)
    refine ⟨fun _ => hnonempty rfl, fun p hp => ?_, by simp [SectionWork.pieces]⟩
    simp only [SectionWork.pointers, List.mem_cons, List.not_mem_nil, or_false] at hp
    rcases hp with rfl | rfl
    · exact hpointers _ (by simp [SectionWork.pointers])
    · exact hback
  | atTimestamps b e front back =>
    obtain ⟨_, _, hstep⟩ := Option.bind_eq_some_iff.mp hstep
    obtain ⟨_, _, rfl⟩ := Option.map_eq_some_iff.mp hstep
    split_ifs
    all_goals
      exact ⟨fun _ => hnonempty rfl, by simp [SectionWork.pointers], by simp [SectionWork.pieces]⟩
  | atLowerBound b e lastTs newestTs =>
    obtain ⟨it, _, rfl⟩ := Option.map_eq_some_iff.mp hstep
    split_ifs
    all_goals
      exact ⟨fun _ => hnonempty rfl, by simp [SectionWork.pointers], by simp [SectionWork.pieces]⟩
  | gathering b e code it pieces =>
    rw [workStep] at hstep
    split_ifs at hstep
    · obtain ⟨x, hx, rfl⟩ := Option.map_eq_some_iff.mp hstep
      split_ifs
      · refine ⟨fun _ => hnonempty rfl, by simp [SectionWork.pointers], fun p hp => ?_⟩
        rcases List.mem_append.mp hp with hold | hnew
        · exact hpieces p hold
        · -- every piece of the element points into its slot
          obtain ⟨piece, hpiece, rfl⟩ := List.mem_map.mp hnew
          rw [iterator_of_mem_elementPieces hpiece]
          exact hx
      · exact ⟨fun _ => hnonempty rfl, by simp [SectionWork.pointers], hpieces⟩
    · cases hstep
      exact ⟨fun _ => hnonempty rfl, by simp [SectionWork.pointers], hpieces⟩
  | atLogFront code pieces =>
    cases hstep
    have hfront := front_isSome h (hnonempty rfl)
    exact ⟨fun _ => hnonempty rfl, by simpa [SectionWork.pointers] using hfront, hpieces⟩
  | atLogBack code front pieces =>
    cases hstep
    have hback := back_isSome h (hnonempty rfl)
    refine ⟨fun _ => hnonempty rfl, fun p hp => ?_, hpieces⟩
    simp only [SectionWork.pointers, List.mem_cons, List.not_mem_nil, or_false] at hp
    rcases hp with rfl | rfl
    · exact hpointers _ (by simp [SectionWork.pointers])
    · exact hback
  | atLogTimestamps code front back pieces =>
    obtain ⟨_, _, hstep⟩ := Option.bind_eq_some_iff.mp hstep
    obtain ⟨_, _, rfl⟩ := Option.map_eq_some_iff.mp hstep
    exact ⟨fun _ => hnonempty rfl, by simp [SectionWork.pointers], hpieces⟩
  | building sawData code pieces =>
    rw [workStep] at hstep
    split_ifs at hstep
    cases hstep
    exact ⟨by simp [SectionWork.sawData], by simp [SectionWork.pointers],
      by simp [SectionWork.pieces]⟩
  | recorderDone => cases hstep
  | answered code pieces => cases hstep

end Ring

/-- The part of the invariant that a notification keeps: the counter is exact, no thread is in
a section while a caller holds the mutex, a thread at work can rely on the ring, and one that
has not begun relies on nothing. -/
structure Sections (s : GateSystem T) : Prop where
  counted : s.requestsRunning = s.threads.countP GateThread.inSection
  held : s.mutexFree = false → s.requestsRunning = 0
  stored : ∃ xs, Represents s.queue xs
  safe : ∀ w, GateThread.working w ∈ s.threads → w.Safe s.queue
  begun : ∀ t ∈ s.threads, ∀ w ∈ t.pendingWork, w.hasBegun = false

/-- A thread sleeps only while a cleanup is requested or its caller is about to notify, and a
caller sleeps only while a thread is in a section or about to notify. -/
structure Gate (s : GateSystem T) : Prop extends Sections s where
  requestWake : ∀ w, GateThread.parked w ∈ s.threads →
    s.cleanupRequested = true ∨ CleanerThread.notifying ∈ s.cleaners
  cleanerWake : CleanerThread.parked ∈ s.cleaners →
    s.requestsRunning ≠ 0 ∨ GateThread.left ∈ s.threads

section Steps
variable {s s' : GateSystem T} {i : ℕ}

theorem mutexFree_eq_false {c : CleanerThread} (hi : s.cleaners[i]? = some c)
    (hc : c.holdsMutex = true) : s.mutexFree = false := by
  rw [mutexFree, List.all_eq_false]
  exact ⟨c, List.mem_of_getElem? hi, by simp [hc]⟩

theorem Sections.not_working (h : Sections s) (hheld : s.mutexFree = false) (w : SectionWork T) :
    GateThread.working w ∉ s.threads := by
  intro hmem
  have hpos : 0 < s.threads.countP GateThread.inSection := List.countP_pos_iff.mpr ⟨_, hmem, rfl⟩
  have hzero := h.held hheld
  have hcounted := h.counted
  omega

theorem inSection_awake (t : GateThread T) : t.awake.inSection = t.inSection := by
  cases t <;> rfl

theorem pendingWork_awake (t : GateThread T) : t.awake.pendingWork = t.pendingWork := by
  cases t <;> rfl

theorem holdsMutex_awake (c : CleanerThread) : c.awake.holdsMutex = c.holdsMutex := by
  cases c <;> rfl

theorem mutexFree_notifyAll : s.notifyAll.mutexFree = s.mutexFree := by
  simp only [mutexFree, notifyAll, List.all_map, Function.comp_def, holdsMutex_awake]

theorem Sections.notifyAll (h : Sections s) : Gate s.notifyAll where
  counted := by
    rw [GateSystem.notifyAll, List.countP_map]
    simpa only [Function.comp_def, inSection_awake] using h.counted
  held := by
    rw [mutexFree_notifyAll]
    exact h.held
  stored := h.stored
  safe := by
    intro w hw
    obtain ⟨t, ht, heq⟩ := List.mem_map.mp hw
    cases t with
    | working w' =>
      cases heq
      exact h.safe _ ht
    | outside | parked | woken | entered | left => cases heq
  begun := by
    intro t ht
    obtain ⟨t', ht', rfl⟩ := List.mem_map.mp ht
    rw [pendingWork_awake]
    exact h.begun t' ht'
  requestWake := by
    intro w hw
    obtain ⟨t, _, heq⟩ := List.mem_map.mp hw
    cases t <;> cases heq
  cleanerWake := by
    intro hc
    obtain ⟨c, _, heq⟩ := List.mem_map.mp hc
    cases c <;> cases heq

theorem Sections.setThread (h : Sections s) {t : GateThread T} (t' : GateThread T)
    (hi : s.threads[i]? = some t)
    (hsection : t'.inSection = t.inSection)
    (hsafe : ∀ w, t' = .working w → w.Safe s.queue)
    (hbegun : ∀ w ∈ t'.pendingWork, w.hasBegun = false) :
    Sections { s with threads := s.threads.set i t' } where
  counted := by
    have hcount := countP_set GateThread.inSection t' hi
    rw [hsection, Nat.add_right_cancel_iff] at hcount
    rw [h.counted, ← hcount]
  held := h.held
  stored := h.stored
  safe := by
    intro w hw
    rcases List.mem_or_eq_of_mem_set hw with hold | heq
    · exact h.safe w hold
    · exact hsafe w heq.symm
  begun := by
    intro x hx
    rcases List.mem_or_eq_of_mem_set hx with hold | rfl
    · exact h.begun x hold
    · exact hbegun

theorem Gate.setThread (h : Gate s) {t : GateThread T} (t' : GateThread T)
    (hi : s.threads[i]? = some t)
    (hsection : t'.inSection = t.inSection) (hleft : t ≠ .left)
    (hsafe : ∀ w, t' = .working w → w.Safe s.queue)
    (hbegun : ∀ w ∈ t'.pendingWork, w.hasBegun = false)
    (hpark : ∀ w, t' = .parked w → s.cleanupRequested = true) :
    Gate { s with threads := s.threads.set i t' } where
  toSections := h.toSections.setThread t' hi hsection hsafe hbegun
  requestWake := by
    intro w hw
    rcases List.mem_or_eq_of_mem_set hw with hold | heq
    · exact h.requestWake w hold
    · exact .inl (hpark w heq.symm)
  cleanerWake := fun hc => (h.cleanerWake hc).imp_right fun hmem =>
    mem_set_of_ne hi hmem hleft.symm

theorem Gate.enter (h : Gate s) {t : GateThread T} (hi : s.threads[i]? = some t)
    (hout : t.inSection = false) (hleft : t ≠ .left) (hfree : s.mutexFree = true)
    {work : SectionWork T} (hbegun : work.hasBegun = false) : Gate (s.enter i work) := by
  have hpending : ∀ w ∈ some work, w.hasBegun = false := by simpa using hbegun
  rw [GateSystem.enter]
  split_ifs with hrequested
  · exact h.setThread _ hi hout.symm hleft (by simp) hpending fun _ _ => hrequested
  · have hcount := countP_set GateThread.inSection (.entered work) hi
    have hentered : (GateThread.entered work).inSection = true := rfl
    rw [hout, hentered, if_neg Bool.false_ne_true, Nat.add_zero, if_pos rfl] at hcount
    refine ⟨⟨?_, fun hheld => ?_, h.stored, fun w hw => ?_, fun x hx => ?_⟩, fun w hw => ?_,
      fun _ => .inl ?_⟩
    · rw [hcount, h.counted]
      rfl
    · exact absurd hfree (Bool.eq_false_iff.mp hheld)
    · rcases List.mem_or_eq_of_mem_set hw with hold | heq
      · exact h.safe w hold
      · cases heq
    · rcases List.mem_or_eq_of_mem_set hx with hold | rfl
      · exact h.begun x hold
      · exact hpending
    · rcases List.mem_or_eq_of_mem_set hw with hold | heq
      · exact h.requestWake w hold
      · cases heq
    · have hcounted := h.counted
      show s.requestsRunning + 1 ≠ 0
      omega

theorem Gate.leave (h : Gate s) {work : SectionWork T}
    (hi : s.threads[i]? = some (.working work)) (hfree : s.mutexFree = true) :
    Gate { s with threads := s.threads.set i .left, requestsRunning := s.requestsRunning - 1 } := by
  have hcount := countP_set GateThread.inSection .left hi
  have hworking : (GateThread.working work).inSection = true := rfl
  have hout : (GateThread.left : GateThread T).inSection = false := rfl
  rw [hworking, hout, if_pos rfl, if_neg Bool.false_ne_true, Nat.add_zero] at hcount
  have hlt : i < s.threads.length := (List.getElem?_eq_some_iff.mp hi).1
  refine ⟨⟨?_, fun hheld => ?_, h.stored, fun w hw => ?_, fun x hx => ?_⟩, fun w hw => ?_,
    fun _ => .inr (List.mem_set hlt _)⟩
  · have hcounted := h.counted
    show s.requestsRunning - 1 = ((s.threads.set i .left).countP GateThread.inSection : ℤ)
    omega
  · exact absurd hfree (Bool.eq_false_iff.mp hheld)
  · rcases List.mem_or_eq_of_mem_set hw with hold | heq
    · exact h.safe w hold
    · cases heq
  · rcases List.mem_or_eq_of_mem_set hx with hold | rfl
    · exact h.begun x hold
    · simp [GateThread.pendingWork]
  · rcases List.mem_or_eq_of_mem_set hw with hold | heq
    · exact h.requestWake w hold
    · cases heq

theorem Sections.setCleaner (h : Sections s) {c' : CleanerThread}
    (hheld : c'.holdsMutex = true → s.requestsRunning = 0) (requested : Bool) :
    Sections { s with cleanupRequested := requested, cleaners := s.cleaners.set i c' } where
  counted := h.counted
  held := by
    intro hfalse
    obtain ⟨x, hx, hholds⟩ := List.all_eq_false.mp hfalse
    rcases List.mem_or_eq_of_mem_set hx with hold | rfl
    · exact h.held (List.all_eq_false.mpr ⟨x, hold, hholds⟩)
    · exact hheld (by simpa using hholds)
  stored := h.stored
  safe := h.safe
  begun := h.begun

theorem Gate.setCleaner (h : Gate s) {c c' : CleanerThread} (hi : s.cleaners[i]? = some c)
    (hheld : c'.holdsMutex = true → s.requestsRunning = 0) (hnotifying : c ≠ .notifying)
    (hpark : c' = .parked → s.requestsRunning ≠ 0) {requested : Bool}
    (hrequested : s.cleanupRequested = true → requested = true ∨ c' = .notifying) :
    Gate { s with cleanupRequested := requested, cleaners := s.cleaners.set i c' } where
  toSections := h.toSections.setCleaner hheld requested
  requestWake := by
    intro w hw
    have hlt : i < s.cleaners.length := (List.getElem?_eq_some_iff.mp hi).1
    rcases h.requestWake w hw with hflag | hmem
    · rcases hrequested hflag with htrue | rfl
      · exact .inl htrue
      · exact .inr (List.mem_set hlt _)
    · exact .inr (mem_set_of_ne hi hmem hnotifying.symm)
  cleanerWake := by
    intro hc
    rcases List.mem_or_eq_of_mem_set hc with hold | heq
    · exact h.cleanerWake hold
    · exact .inl (hpark heq.symm)

theorem Gate.setQueue (h : Gate s) {q : IterableQueueModel T} {xs : List T}
    (hq : Represents q xs)
    (hsafe : ∀ w, GateThread.working w ∈ s.threads → w.Safe q) : Gate { s with queue := q } :=
  ⟨⟨h.counted, h.held, ⟨xs, hq⟩, hsafe, h.begun⟩, h.requestWake, h.cleanerWake⟩

theorem Gate.awaitRequests (h : Gate s) {c : CleanerThread} (hi : s.cleaners[i]? = some c)
    (hnotifying : c ≠ .notifying) {requested : Bool}
    (hrequested : s.cleanupRequested = true → requested = true) :
    Gate ({ s with cleanupRequested := requested }.awaitRequests i) := by
  rw [GateSystem.awaitRequests]
  by_cases hzero : s.requestsRunning = 0
  · rw [if_pos hzero]
    exact h.setCleaner hi (fun _ => hzero) hnotifying (by simp) fun hflag =>
      .inl (hrequested hflag)
  · rw [if_neg hzero]
    exact h.setCleaner hi (by simp [CleanerThread.holdsMutex]) hnotifying (fun _ => hzero)
      fun hflag => .inl (hrequested hflag)

variable [ReadoutType T] {conf : GateConf T}

/-- Each step of a cleanup keeps the invariant; the ring changes under the mutex, so no thread
is at work. -/
theorem Gate.cleanupStep (h : Gate s) {c : CleanerThread} (hi : s.cleaners[i]? = some c)
    (hstep : GateSystem.cleanupStep conf s i c = some s') : Gate s' := by
  cases c with
  | starting =>
    have hzero := h.held (mutexFree_eq_false hi rfl)
    cases hstep
    refine h.setCleaner hi (fun _ => hzero) (by simp) ?_ .inl
    split_ifs <;> simp
  | popping left =>
    have hheld := mutexFree_eq_false hi rfl
    have hzero := h.held hheld
    cases left with
    | zero =>
      cases hstep
      exact h.setCleaner hi (fun _ => hzero) (by simp) (by simp) .inl
    | succ left =>
      obtain ⟨front, _, hstep⟩ := Option.bind_eq_some_iff.mp hstep
      split_ifs at hstep
      · obtain ⟨queue, hpop, rfl⟩ := Option.map_eq_some_iff.mp hstep
        obtain ⟨xs, hxs⟩ := h.stored
        rw [popFront] at hpop
        split_ifs at hpop with hne
        cases hpop
        cases xs with
        | nil => exact absurd (hxs.readIndex_eq_writeIndex_iff.mpr rfl) hne
        | cons x xs =>
          have hidle := h.setQueue hxs.dropFront fun w hw =>
            absurd hw (h.not_working hheld w)
          exact hidle.setCleaner hi (fun _ => hzero) (by simp) (by simp) .inl
      · cases hstep
        exact h.setCleaner hi (fun _ => hzero) (by simp) (by simp) .inl
  | removingErrors =>
    have hzero := h.held (mutexFree_eq_false hi rfl)
    obtain ⟨front, _, rfl⟩ := Option.map_eq_some_iff.mp hstep
    have hset : Gate { s with
        cleanupRequested := s.cleanupRequested, cleaners := s.cleaners.set i .resetting } :=
      h.setCleaner hi (fun _ => hzero) (by simp) (by simp) .inl
    exact ⟨⟨hset.counted, hset.held, hset.stored, hset.safe, hset.begun⟩, hset.requestWake,
      hset.cleanerWake⟩
  | resetting =>
    have hzero := h.held (mutexFree_eq_false hi rfl)
    cases hstep
    exact h.setCleaner hi (fun _ => hzero) (by simp) (by simp) fun _ => .inr rfl
  | notifying =>
    cases hstep
    exact
      (h.toSections.setCleaner (by simp [CleanerThread.holdsMutex]) s.cleanupRequested).notifyAll
  | outside | parked | woken => cases hstep

theorem Gate.notify {i : ℕ} (h : Gate s) (hstep : step conf s (.notify i) = some s') :
    Gate s' := by
  simp only [GateSystem.step] at hstep
  split at hstep
  · rename_i work hi
    cases hstep
    -- the thread begins its work
    have hbegun := h.begun _ (List.mem_of_getElem? hi) work rfl
    refine (h.toSections.setThread (.working work) hi rfl (fun w hw => ?_)
      (by simp [GateThread.pendingWork])).notifyAll
    cases hw
    exact SectionWork.safe_of_hasBegun_eq_false hbegun
  · rename_i hi
    cases hstep
    exact (h.toSections.setThread .outside hi rfl (by simp)
      (by simp [GateThread.pendingWork])).notifyAll
  · cases hstep

theorem Gate.work {i : ℕ} (h : Gate s) (hstep : step conf s (.work i) = some s') : Gate s' := by
  simp only [GateSystem.step] at hstep
  split at hstep
  · rename_i work hi
    obtain ⟨work', hwork, rfl⟩ := Option.map_eq_some_iff.mp hstep
    obtain ⟨xs, hxs⟩ := h.stored
    refine h.setThread (.working work') hi rfl (by simp) (fun w hw => ?_)
      (by simp [GateThread.pendingWork]) (by simp)
    cases hw
    exact safe_workStep hxs (h.safe _ (List.mem_of_getElem? hi)) hwork
  · cases hstep

omit [ReadoutType T] in
theorem Gate.write (payload : T) (h : Gate s) :
    Gate { s with queue := (s.queue.write payload).2 } := by
  obtain ⟨xs, hxs⟩ := h.stored
  obtain ⟨ys, hys⟩ := hxs.exists_write payload
  exact h.setQueue hys fun w hw => safe_write hxs payload (h.safe w hw)

theorem Gate.step (h : Gate s) {a : GateAction T} (hstep : GateSystem.step conf s a = some s') :
    Gate s' := by
  cases a with
  | issueRequest i b e | recorderSearch i ts =>
    simp only [GateSystem.step] at hstep
    split at hstep
    · rename_i hi
      split_ifs at hstep with hfree
      cases hstep
      exact h.enter hi rfl (by simp) hfree rfl
    · cases hstep
  | recheck i =>
    simp only [GateSystem.step] at hstep
    split at hstep
    · rename_i work hi
      split_ifs at hstep with hfree
      cases hstep
      exact h.enter hi rfl (by simp) hfree (h.begun _ (List.mem_of_getElem? hi) work rfl)
    · cases hstep
  | notify i => exact h.notify hstep
  | work i => exact h.work hstep
  | leave i =>
    simp only [GateSystem.step] at hstep
    split at hstep
    · rename_i work hi
      split_ifs at hstep with hleave
      cases hstep
      exact h.leave hi ((Bool.and_eq_true _ _).mp hleave).2
    · cases hstep
  | wake i =>
    simp only [GateSystem.step] at hstep
    split at hstep
    · rename_i work hi
      cases hstep
      exact h.setThread (.woken work) hi rfl (by simp) (by simp)
        (h.begun (.parked work) (List.mem_of_getElem? hi)) (by simp)
    · cases hstep
  | cleanupCheck i =>
    simp only [GateSystem.step] at hstep
    split at hstep
    · rename_i hi
      split_ifs at hstep
      · cases hstep
        exact h.awaitRequests hi (by simp) fun _ => rfl
      · cases hstep
        exact h
    · cases hstep
  | recheckCleaner i =>
    simp only [GateSystem.step] at hstep
    split at hstep
    · rename_i hi
      split_ifs at hstep
      cases hstep
      exact h.awaitRequests hi (by simp) id
    · cases hstep
  | cleanup i =>
    obtain ⟨c, hi, hstep⟩ := Option.bind_eq_some_iff.mp hstep
    exact h.cleanupStep hi hstep
  | wakeCleaner i =>
    simp only [GateSystem.step] at hstep
    split at hstep
    · rename_i hi
      cases hstep
      exact h.setCleaner hi (by simp [CleanerThread.holdsMutex]) (by simp) (by simp) .inl
    · cases hstep
  | write payload =>
    cases hstep
    exact h.write payload
  | setNextTimestampToRecord ts =>
    cases hstep
    exact ⟨⟨h.counted, h.held, h.stored, h.safe, h.begun⟩, h.requestWake, h.cleanerWake⟩

/-- What a step does to the ring, the request flag and the callers of `cleanup_check`. -/
inductive StepCases (conf : GateConf T) (s s' : GateSystem T) : Prop where
  | passed (hqueue : s'.queue = s.queue) (hflag : s'.cleanupRequested = s.cleanupRequested)
      (hcleaners : s'.cleaners = s.cleaners ∨ s'.cleaners = s.cleaners.map CleanerThread.awake)
  | written (payload : T) (hqueue : s'.queue = (s.queue.write payload).2)
      (hflag : s'.cleanupRequested = s.cleanupRequested) (hcleaners : s'.cleaners = s.cleaners)
  | called (i : ℕ) (c c' : CleanerThread) (hi : s.cleaners[i]? = some c)
      (hqueue : s'.queue = s.queue) (hcleaners : s'.cleaners = s.cleaners.set i c')
      (hc : c ≠ .notifying) (hc' : c' = .starting ∨ c' = .parked ∨ c' = .woken)
  | cleaning (i : ℕ) (c : CleanerThread) (hi : s.cleaners[i]? = some c)
      (hstep : GateSystem.cleanupStep conf s i c = some s')

theorem stepCases {a : GateAction T} (hstep : GateSystem.step conf s a = some s') :
    StepCases conf s s' := by
  cases a with
  | issueRequest i b e | recorderSearch i ts | recheck i =>
    simp only [GateSystem.step] at hstep
    split at hstep
    · split_ifs at hstep
      cases hstep
      rw [GateSystem.enter]
      split_ifs <;> exact .passed rfl rfl (.inl rfl)
    · cases hstep
  | notify i =>
    simp only [GateSystem.step] at hstep
    split at hstep <;> cases hstep <;> exact .passed rfl rfl (.inr rfl)
  | work i =>
    simp only [GateSystem.step] at hstep
    split at hstep
    · obtain ⟨_, _, rfl⟩ := Option.map_eq_some_iff.mp hstep
      exact .passed rfl rfl (.inl rfl)
    · cases hstep
  | leave i =>
    simp only [GateSystem.step] at hstep
    split at hstep
    · split_ifs at hstep
      cases hstep
      exact .passed rfl rfl (.inl rfl)
    · cases hstep
  | wake i =>
    simp only [GateSystem.step] at hstep
    split at hstep <;> cases hstep
    exact .passed rfl rfl (.inl rfl)
  | wakeCleaner i =>
    simp only [GateSystem.step] at hstep
    split at hstep
    · next hi =>
      cases hstep
      exact .called i _ _ hi rfl rfl (by simp) (.inr (.inr rfl))
    · cases hstep
  | cleanupCheck i =>
    simp only [GateSystem.step] at hstep
    split at hstep
    · next hi =>
      split_ifs at hstep <;> cases hstep
      · refine .called i _ _ hi rfl rfl (by simp) ?_
        split_ifs <;> simp
      · exact .passed rfl rfl (.inl rfl)
    · cases hstep
  | recheckCleaner i =>
    simp only [GateSystem.step] at hstep
    split at hstep
    · next hi =>
      split_ifs at hstep
      cases hstep
      refine .called i _ _ hi rfl rfl (by simp) ?_
      split_ifs <;> simp
    · cases hstep
  | cleanup i =>
    obtain ⟨c, hi, hstep⟩ := Option.bind_eq_some_iff.mp hstep
    exact .cleaning i c hi hstep
  | write payload =>
    cases hstep
    exact .written payload rfl rfl rfl
  | setNextTimestampToRecord ts =>
    cases hstep
    exact .passed rfl rfl (.inl rfl)

theorem cleanupStep_queue {c : CleanerThread}
    (hstep : GateSystem.cleanupStep conf s i c = some s') :
    s'.queue = s.queue ∨ s.queue.popFront = some s'.queue := by
  cases c with
  | popping left =>
    cases left with
    | zero =>
      cases hstep
      exact .inl rfl
    | succ left =>
      obtain ⟨front, _, hstep⟩ := Option.bind_eq_some_iff.mp hstep
      split_ifs at hstep
      · obtain ⟨queue, hpop, rfl⟩ := Option.map_eq_some_iff.mp hstep
        exact .inr hpop
      · cases hstep
        exact .inl rfl
  | removingErrors =>
    obtain ⟨front, _, rfl⟩ := Option.map_eq_some_iff.mp hstep
    exact .inl rfl
  | starting | resetting | notifying =>
    cases hstep
    exact .inl rfl
  | outside | parked | woken => cases hstep

theorem readIndex_eq_or_held (h : Gate s) {a : GateAction T}
    (hstep : GateSystem.step conf s a = some s') :
    s'.queue.readIndex = s.queue.readIndex ∨ s.mutexFree = false := by
  cases stepCases hstep with
  | passed hqueue _ _ => exact .inl (congrArg _ hqueue)
  | written payload hqueue _ _ =>
    obtain ⟨xs, hxs⟩ := h.stored
    rw [hqueue, hxs.write_eq_ite]
    split_ifs <;> exact .inl rfl
  | called i c c' hi hqueue _ _ _ => exact .inl (congrArg _ hqueue)
  | cleaning i c hi hstep =>
    cases c with
    | starting | popping | removingErrors | resetting | notifying =>
      exact .inr (mutexFree_eq_false hi rfl)
    | outside | parked | woken => cases hstep

end Steps

theorem gate_init {q : IterableQueueModel T} {xs : List T} (hq : Represents q xs)
    (registry : FrameErrorRegistry) (threads cleaners : ℕ) :
    Gate (init q registry threads cleaners) := by
  refine ⟨⟨?_, fun _ => rfl, ⟨xs, hq⟩, fun w hw => ?_, fun t ht w hw => ?_⟩, fun w hw => ?_,
    fun hc => ?_⟩
  · rw [init, List.countP_eq_zero.mpr]
    · rfl
    · intro t ht
      rw [(List.mem_replicate.mp ht).2]
      exact Bool.false_ne_true
  · cases (List.mem_replicate.mp hw).2
  · rw [(List.mem_replicate.mp ht).2] at hw
    cases hw
  · cases (List.mem_replicate.mp hw).2
  · cases (List.mem_replicate.mp hc).2

/-- Cleanup and requests exclude each other, and none of them is left asleep. -/
structure Exclusion [ReadoutType T] (conf : GateConf T) (s : GateSystem T) : Prop where
  counted : s.requestsRunning = s.threads.countP GateThread.inSection
  exclusive : ∀ a s', step conf s a = some s' → s'.queue.readIndex ≠ s.queue.readIndex →
    s.threads.countP GateThread.inSection = 0
  nonNull : ∀ w, GateThread.working w ∈ s.threads →
    (w.sawData = true → s.queue.front ≠ none ∧ s.queue.back ≠ none) ∧ ∀ p ∈ w.pointers, p ≠ none
  live : ∀ w, GateThread.working w ∈ s.threads → ∀ p ∈ w.pieces,
    p.1.iterator ∈ s.queue.liveSlots ∧ s.queue.records p.1.iterator = some p.2
  noLostWakeup :
    (∃ w, GateThread.parked w ∈ s.threads ∧ s.cleanupRequested = false) ∨
      (CleanerThread.parked ∈ s.cleaners ∧ s.requestsRunning = 0) →
    (∃ t ∈ s.threads, t.owesNotify = true) ∨ CleanerThread.notifying ∈ s.cleaners

section Exclusion
variable [ReadoutType T] {conf : GateConf T} {s : GateSystem T}

theorem exclusion_of_gate (h : Gate s) : Exclusion conf s where
  counted := h.counted
  exclusive := by
    intro a s' hstep hpop
    rcases readIndex_eq_or_held h hstep with heq | hheld
    · exact absurd heq hpop
    · have hzero := h.held hheld
      rw [h.counted] at hzero
      exact_mod_cast hzero
  nonNull := by
    intro w hw
    obtain ⟨xs, hxs⟩ := h.stored
    have hsafe := h.safe w hw
    refine ⟨fun hdata => ⟨?_, ?_⟩, fun p hp => ?_⟩
    · obtain ⟨slot, hslot, _⟩ := front_isSome hxs (hsafe.nonempty hdata)
      simp [hslot]
    · obtain ⟨slot, hslot, _⟩ := back_isSome hxs (hsafe.nonempty hdata)
      simp [hslot]
    · obtain ⟨slot, rfl, _⟩ := hsafe.pointers p hp
      simp
  live := by
    intro w hw p hp
    obtain ⟨xs, hxs⟩ := h.stored
    have hrecord := (h.safe w hw).pieces p hp
    exact ⟨(hxs.mem_liveSlots_iff _).mpr (by rw [hrecord]; rfl), hrecord⟩
  noLostWakeup := by
    rintro (⟨w, hw, hflag⟩ | ⟨hc, hzero⟩)
    · rcases h.requestWake w hw with htrue | hmem
      · rw [htrue] at hflag
        cases hflag
      · exact .inr hmem
    · rcases h.cleanerWake hc with hne | hmem
      · exact absurd hzero hne
      · exact .inl ⟨_, hmem, rfl⟩

/-- In every run of any number of threads and callers over a ring. -/
theorem run_exclusion (conf : GateConf T) {q : IterableQueueModel T} {xs : List T}
    (hq : Represents q xs) (registry : FrameErrorRegistry) (threads cleaners : ℕ)
    (as : List (GateAction T)) (s : GateSystem T)
    (hrun : Execution.run (step conf) (init q registry threads cleaners) as = some s) :
    Exclusion conf s :=
  exclusion_of_gate <| Execution.run_invariant (fun _ _ _ hI hstep => hI.step hstep)
    (gate_init hq registry threads cleaners) hrun

end Exclusion

def chunkGateConf : GateConf (Chunk 1 10) where
  popLimitSize := 2
  toPop occupancy := occupancy / 2
  lowerBound q x _ := BinarySearchQueueModel.search q x

def excludedActions : List (GateAction (Chunk 1 10)) :=
  [.issueRequest 0 115 200, .notify 0] ++ List.replicate 6 (.work 0) ++
    [.cleanupCheck 0, .issueRequest 1 115 200, .write ⟨130⟩] ++ List.replicate 7 (.work 0) ++
    [.leave 0, .notify 0, .recheckCleaner 0] ++ List.replicate 7 (.cleanup 0) ++
    [.recheck 1, .notify 1, .work 1, .work 1]

theorem run_exclusion_chunks : Exclusion chunkGateConf
    ((Execution.run (step chunkGateConf) (init (filled 8 [⟨100⟩, ⟨110⟩, ⟨120⟩]) .empty 2 1)
      excludedActions).get (by decide +kernel)) :=
  run_exclusion chunkGateConf (represents_filled (by decide) _ (by decide) (by decide)) .empty 2 1
    excludedActions _ (Option.some_get _).symm

end GateSystem
end DataHandling

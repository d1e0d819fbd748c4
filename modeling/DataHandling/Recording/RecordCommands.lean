import DataHandling.Foundation.Execution
import Mathlib.Data.Int.Notation

/-! Record commands of both request handlers and the recording thread that serves them: the
`m_recording` flag, which a command tests and the thread sets, the readiness of the thread, and the
file descriptor that `conf` opens. Every access to one of them is a step, and a write to the open
descriptor is taken to store its data. -/

namespace DataHandling

inductive RecordingHandler where
  | default
  | zeroCopy
  deriving DecidableEq

/-- What a command reports, or that its work goes to the recording thread. -/
inductive RecordOutcome where
  | error (text : String)
  | warning (texts : List String)
  | accepted

structure RecordCommand where
  duration : Option ℤ
  outcome : RecordOutcome

/-- Where the recording thread stands with the work of a command. -/
inductive RecordingThread where
  | ready
  | assigned (i : ℕ)
  | writing (i : ℕ)
  | closing (i : ℕ)
  | clearing (i : ℕ)
  | flushing (i : ℕ)
  | returning (i : ℕ)
  deriving DecidableEq

/-- The flag, the descriptor and the thread, with the work that waits for it. A command that has
passed its tests is `handingOver`. The recordings that have begun and ended, what they wrote, and
what of it came while the descriptor was open, are kept. -/
structure RecordingControl (D : Type) where
  recording : Bool
  isOpen : Bool
  commands : List RecordCommand
  handingOver : Option ℕ
  thread : RecordingThread
  waiting : List ℕ
  begun : List ℕ
  ended : List ℕ
  offered : List (ℕ × D)
  file : List (ℕ × D)

/-- A command comes, or calls `set_work`; the recording thread writes data, or goes on otherwise. -/
inductive RecordAction (D : Type) where
  | record (duration : Option ℤ)
  | setWork
  | write (data : D)
  | work

/-- The tests of `record`, where the zero-copy handler takes a missing duration for zero. -/
def RecordingHandler.record (recording isOpen : Bool) (duration : Option ℤ) :
    RecordingHandler → RecordOutcome
  | .default =>
    if recording then .error "A recording is still running, no new recording was started!"
    else if isOpen then .accepted
    else .error "DLH is not configured for recording"
  | .zeroCopy =>
    if recording then .error "A recording is still running, no new recording was started!"
    else
      match duration with
      | none =>
        .warning ["A recording command with missing duration field received!",
          "Recording for 0 seconds requested. Recording command is ignored!"]
      | some 0 => .warning ["Recording for 0 seconds requested. Recording command is ignored!"]
      | some _ => .accepted

namespace RecordingThread

def taken : RecordingThread → List ℕ
  | .assigned i => [i]
  | _ => []

end RecordingThread

namespace RecordingControl
variable {D : Type} (handler : RecordingHandler) (keeps : Bool)

def init (D : Type) : RecordingControl D where
  recording := false
  isOpen := true
  commands := []
  handingOver := none
  thread := .ready
  waiting := []
  begun := []
  ended := []
  offered := []
  file := []

def record (s : RecordingControl D) (duration : Option ℤ) : RecordingControl D :=
  { s with
    commands := s.commands ++ [⟨duration, handler.record s.recording s.isOpen duration⟩]
    handingOver :=
      match handler.record s.recording s.isOpen duration with
      | .accepted => some s.commands.length
      | _ => none }

/-- `set_work`, whose result the handlers ignore. A thread that is not ready keeps the work for
later or refuses it. -/
def setWork (s : RecordingControl D) (i : ℕ) : RecordingControl D :=
  if s.thread = .ready then { s with thread := .assigned i, handingOver := none }
  else if keeps then { s with waiting := s.waiting ++ [i], handingOver := none }
  else { s with handingOver := none }

def work (s : RecordingControl D) : Option (RecordingControl D) :=
  match s.thread with
  | .ready => none
  | .assigned i =>
    some { s with recording := true, begun := s.begun ++ [i], thread := .writing i }
  -- the duration is over
  | .writing i =>
    some { s with
      thread :=
        match handler with
        | .default => .clearing i
        | .zeroCopy => .closing i }
  | .closing i => some { s with isOpen := false, thread := .clearing i }
  | .clearing i =>
    some { s with
      recording := false
      ended := s.ended ++ [i]
      thread :=
        match handler with
        | .default => .flushing i
        | .zeroCopy => .returning i }
  | .flushing i => some { s with thread := .returning i }
  | .returning _ =>
    match s.waiting with
    | [] => some { s with thread := .ready }
    | i :: waiting => some { s with thread := .assigned i, waiting := waiting }

def step (s : RecordingControl D) : RecordAction D → Option (RecordingControl D)
  | .record duration =>
    match s.handingOver with
    | none => some (s.record handler duration)
    | some _ => none
  | .setWork => s.handingOver.map (s.setWork keeps)
  | .write data =>
    match s.thread with
    | .writing i =>
      some { s with
        offered := s.offered ++ [(i, data)]
        file := if s.isOpen then s.file ++ [(i, data)] else s.file }
    | _ => none
  | .work => s.work handler

def items (s : RecordingControl D) : List ℕ := s.begun ++ s.thread.taken ++ s.waiting

def Served (s : RecordingControl D) (i : ℕ) : RecordOutcome → Prop
  | .error _ => True
  | .warning _ => False
  | .accepted => s.handingOver = some i ∨ i ∈ s.items

/-- Every command with a positive duration is served, every recording writes while the descriptor is
open, and none begins before the one before it has ended. -/
structure RecordingsReachFile (s : RecordingControl D) : Prop where
  served : ∀ i c d, s.commands[i]? = some c → c.duration = some d → 0 < d → s.Served i c.outcome
  written : s.file = s.offered
  single : s.begun = s.ended ∨ ∃ i, s.begun = s.ended ++ [i]

/-- A command finds the thread ready or gets its work kept, and a zero-copy recording is the first
one. -/
def HandsOver (s : RecordingControl D) : RecordAction D → Prop
  | .setWork => (keeps = true ∨ s.thread = .ready) ∧ (handler = .zeroCopy → s.items = [])
  | .record _ | .write _ | .work => True

instance (s : RecordingControl D) (a : RecordAction D) :
    Decidable (HandsOver handler keeps s a) :=
  match a with
  | .setWork => inferInstanceAs (Decidable (_ ∧ (_ → _)))
  | .record _ | .write _ | .work => isTrue trivial

/-- How far the thread is with a recording that has begun. -/
def Progress (begun ended : List ℕ) : RecordingThread → Prop
  | .ready | .assigned _ => begun = ended
  | .writing i | .closing i | .clearing i => begun = ended ++ [i]
  | .flushing _ | .returning _ => begun = ended ∧ begun ≠ []

def NeedsDescriptor : RecordingThread → Prop
  | .assigned _ | .writing _ | .closing _ => True
  | .ready | .clearing _ | .flushing _ | .returning _ => False

/-- What holds between the steps: a closed descriptor is that of a zero-copy recording, and nothing
comes after it. -/
structure Settled (s : RecordingControl D) : Prop where
  served : ∀ i c d, s.commands[i]? = some c → c.duration = some d → 0 < d → s.Served i c.outcome
  written : s.file = s.offered
  progress : Progress s.begun s.ended s.thread
  descriptor : s.isOpen = true ∨ handler = .zeroCopy ∧ s.begun ≠ [] ∧ ¬ NeedsDescriptor s.thread
  waiting : handler = .zeroCopy → s.waiting = []
  closing : ∀ i, s.thread = .closing i → handler = .zeroCopy

section Steps
variable {handler : RecordingHandler} {keeps : Bool} {s s' : RecordingControl D}

theorem settled_init : Settled handler (init D) where
  served := by
    intro i c d hget
    cases hget
  written := rfl
  progress := rfl
  descriptor := .inl rfl
  waiting := fun _ => rfl
  closing := by
    intro i hthread
    cases hthread

theorem Served.mono {i : ℕ} {outcome : RecordOutcome} (h : s.Served i outcome)
    (hover : s.handingOver = some i → s'.handingOver = some i ∨ i ∈ s'.items)
    (hitems : i ∈ s.items → i ∈ s'.items) : s'.Served i outcome := by
  cases outcome with
  | error text => trivial
  | warning texts => exact h
  | accepted =>
    rcases h with hhanding | hmem
    · exact hover hhanding
    · exact .inr (hitems hmem)

theorem record_ne_warning {recording isOpen : Bool} {d : ℤ} (hpos : 0 < d) (texts : List String) :
    handler.record recording isOpen (some d) ≠ .warning texts := by
  cases handler with
  | default =>
    simp only [RecordingHandler.record]
    split_ifs <;> rintro ⟨⟩
  | zeroCopy =>
    simp only [RecordingHandler.record]
    split_ifs
    · rintro ⟨⟩
    · split
      · rename_i heq
        cases heq
      · rename_i heq
        rw [Option.some.inj heq] at hpos
        exact absurd hpos (Int.lt_irrefl 0)
      · rintro ⟨⟩

theorem Settled.record (h : Settled handler s) (hidle : s.handingOver = none)
    (duration : Option ℤ) : Settled handler (s.record handler duration) := by
  refine ⟨fun i c d hget hduration hpos => ?_, h.written, h.progress, h.descriptor, h.waiting,
    h.closing⟩
  simp only [RecordingControl.record] at hget
  rcases Nat.lt_or_ge i s.commands.length with hlt | hge
  · rw [List.getElem?_append_left hlt] at hget
    refine (h.served i c d hget hduration hpos).mono (fun heq => ?_) id
    rw [hidle] at heq
    cases heq
  · have hlen : i = s.commands.length := by
      have hlt := (List.getElem?_eq_some_iff.mp hget).1
      rw [List.length_append, List.length_singleton] at hlt
      omega
    subst hlen
    rw [List.getElem?_concat_length] at hget
    cases hget
    cases hduration
    cases houtcome : handler.record s.recording s.isOpen (some d) with
    | error text => trivial
    | warning texts => exact absurd houtcome (record_ne_warning hpos texts)
    | accepted =>
      refine .inl ?_
      simp only [RecordingControl.record, houtcome]

theorem Progress.begun_ne_nil {begun ended : List ℕ} {thread : RecordingThread}
    (h : Progress begun ended thread) (hready : thread ≠ .ready) (htaken : thread.taken = []) :
    begun ≠ [] := by
  cases thread with
  | ready => exact absurd rfl hready
  | assigned i => cases htaken
  | writing i | closing i | clearing i =>
    rw [h]
    exact List.append_ne_nil_of_right_ne_nil _ (List.cons_ne_nil i [])
  | flushing i | returning i => exact h.2

theorem Settled.items_ne_nil (h : Settled handler s) (hready : s.thread ≠ .ready) :
    s.items ≠ [] := by
  intro hnil
  obtain ⟨hfront, -⟩ := List.append_eq_nil_iff.mp hnil
  obtain ⟨hbegun, htaken⟩ := List.append_eq_nil_iff.mp hfront
  exact h.progress.begun_ne_nil hready htaken hbegun

theorem Settled.isOpen (h : Settled handler s) (hfirst : handler = .zeroCopy → s.items = []) :
    s.isOpen = true := by
  rcases h.descriptor with hopen | ⟨hzero, hbegun, -⟩
  · exact hopen
  · obtain ⟨hfront, -⟩ := List.append_eq_nil_iff.mp (hfirst hzero)
    exact absurd (List.append_eq_nil_iff.mp hfront).1 hbegun

theorem Settled.setWork {i : ℕ} (h : Settled handler s) (hover : s.handingOver = some i)
    (hmeets : HandsOver handler keeps s .setWork) : Settled handler (s.setWork keeps i) := by
  obtain ⟨hkept, hfirst⟩ := hmeets
  have hopen := h.isOpen hfirst
  have hserved : ∀ s' : RecordingControl D, s'.commands = s.commands → i ∈ s'.items →
      (∀ j ∈ s.items, j ∈ s'.items) →
      ∀ j c d, s'.commands[j]? = some c → c.duration = some d → 0 < d → s'.Served j c.outcome :=
    fun s' hcommands hnew hold j c d hget hduration hpos => by
      rw [hcommands] at hget
      refine (h.served j c d hget hduration hpos).mono (fun heq => ?_) (hold j)
      rw [hover] at heq
      cases heq
      exact .inr hnew
  unfold RecordingControl.setWork
  split_ifs with hready hkeeps
  · have hprogress := h.progress
    rw [hready] at hprogress
    refine ⟨hserved _ rfl ?_ fun j hj => ?_, h.written, hprogress, .inl hopen, h.waiting,
      by rintro j ⟨⟩⟩
    · simp [items, RecordingThread.taken]
    · simp only [items, RecordingThread.taken, hready] at hj ⊢
      simp only [List.append_nil, List.mem_append] at hj ⊢
      exact hj.imp_left .inl
  · refine ⟨hserved _ rfl ?_ fun j hj => ?_, h.written, h.progress, .inl hopen, fun hzero => ?_,
      h.closing⟩
    · simp [items]
    · simp only [items, List.mem_append] at hj ⊢
      exact hj.imp_right .inl
    · exact absurd (hfirst hzero) (h.items_ne_nil hready)
  · exact absurd (hkept.resolve_left hkeeps) hready

theorem Settled.served_of_items (h : Settled handler s) (hcommands : s'.commands = s.commands)
    (hover : s'.handingOver = s.handingOver) (hitems : s'.items = s.items) :
    ∀ i c d, s'.commands[i]? = some c → c.duration = some d → 0 < d → s'.Served i c.outcome :=
  fun i c d hget hduration hpos => by
    rw [hcommands] at hget
    refine (h.served i c d hget hduration hpos).mono (fun heq => .inl ?_) (fun hmem => ?_)
    · rw [hover, heq]
    · rwa [hitems]

theorem Settled.goOn {recording isOpen : Bool} {ended : List ℕ} {thread : RecordingThread}
    (h : Settled handler s) (htaken : s.thread.taken = []) (htaken' : thread.taken = [])
    (hprogress : Progress s.begun ended thread)
    (hdescriptor : isOpen = true ∨ handler = .zeroCopy ∧ s.begun ≠ [] ∧ ¬ NeedsDescriptor thread)
    (hclosing : ∀ i, thread = .closing i → handler = .zeroCopy) :
    Settled handler { s with
      recording := recording, isOpen := isOpen, ended := ended, thread := thread } := by
  refine ⟨h.served_of_items rfl rfl ?_, h.written, hprogress, hdescriptor, h.waiting, hclosing⟩
  simp only [items, htaken, htaken']

theorem Settled.work (h : Settled handler s) (hstep : s.work handler = some s') :
    Settled handler s' := by
  have hprogress := h.progress
  have hdescriptor := h.descriptor
  have hbegun := hprogress.begun_ne_nil
  unfold RecordingControl.work at hstep
  split at hstep
  · cases hstep
  · rename_i i hthread
    cases hstep
    rw [hthread] at hprogress hdescriptor
    refine ⟨h.served_of_items rfl rfl ?_, h.written, congrArg (· ++ [i]) hprogress, ?_, h.waiting,
      by rintro j ⟨⟩⟩
    · simp only [items, RecordingThread.taken, hthread, List.append_nil]
    · exact .inl (hdescriptor.resolve_right fun hclosed => hclosed.2.2 trivial)
  · rename_i i hthread
    cases hstep
    rw [hthread] at hprogress hdescriptor
    have hopen : s.isOpen = true := hdescriptor.resolve_right fun hclosed => hclosed.2.2 trivial
    cases handler with
    | default =>
      exact h.goOn (by rw [hthread]; rfl) rfl hprogress (.inl hopen) (by rintro j ⟨⟩)
    | zeroCopy => exact h.goOn (by rw [hthread]; rfl) rfl hprogress (.inl hopen) (fun _ _ => rfl)
  · rename_i i hthread
    cases hstep
    rw [hthread] at hprogress hbegun
    exact h.goOn (by rw [hthread]; rfl) rfl hprogress
      (.inr ⟨h.closing i hthread, hbegun (by rintro ⟨⟩) rfl, id⟩) (by rintro j ⟨⟩)
  · rename_i i hthread
    cases hstep
    rw [hthread] at hprogress hdescriptor hbegun
    have hdone : s.begun = s.ended ++ [i] ∧ s.begun ≠ [] :=
      ⟨hprogress, hbegun (by rintro ⟨⟩) rfl⟩
    cases handler with
    | default => exact h.goOn (by rw [hthread]; rfl) rfl hdone hdescriptor (by rintro j ⟨⟩)
    | zeroCopy => exact h.goOn (by rw [hthread]; rfl) rfl hdone hdescriptor (by rintro j ⟨⟩)
  · rename_i i hthread
    cases hstep
    rw [hthread] at hprogress hdescriptor
    exact h.goOn (by rw [hthread]; rfl) rfl hprogress hdescriptor (by rintro j ⟨⟩)
  · rename_i i hthread
    rw [hthread] at hprogress hdescriptor
    split at hstep
    · cases hstep
      exact h.goOn (by rw [hthread]; rfl) rfl hprogress.1 hdescriptor (by rintro j ⟨⟩)
    · -- the default handler, where the next recording has waited
      rename_i j waiting hwaiting
      cases hstep
      have hdefault : handler ≠ .zeroCopy := fun hzero => by
        rw [h.waiting hzero] at hwaiting
        cases hwaiting
      refine ⟨h.served_of_items rfl rfl ?_, h.written, hprogress.1, ?_,
        fun hzero => absurd hzero hdefault, by rintro k ⟨⟩⟩
      · simp [items, RecordingThread.taken, hthread, hwaiting]
      · exact .inl (hdescriptor.resolve_right fun hclosed => hdefault hclosed.1)

theorem Settled.write {data : D} (h : Settled handler s)
    (hstep : step handler keeps s (.write data) = some s') : Settled handler s' := by
  simp only [step] at hstep
  split at hstep
  · rename_i i hthread
    cases hstep
    have hopen : s.isOpen = true := h.descriptor.resolve_right fun hclosed =>
      hclosed.2.2 (by rw [hthread]; trivial)
    refine ⟨h.served, ?_, h.progress, h.descriptor, h.waiting, h.closing⟩
    rw [if_pos hopen, h.written]
  · cases hstep

theorem Settled.step {a : RecordAction D} (h : Settled handler s)
    (hmeets : HandsOver handler keeps s a) (hstep : step handler keeps s a = some s') :
    Settled handler s' := by
  cases a with
  | record duration =>
    simp only [RecordingControl.step] at hstep
    split at hstep
    · rename_i hidle
      cases hstep
      exact h.record hidle duration
    · cases hstep
  | setWork =>
    obtain ⟨i, hover, rfl⟩ := Option.map_eq_some_iff.mp hstep
    exact h.setWork hover hmeets
  | write data => exact h.write hstep
  | work => exact h.work hstep

theorem Settled.recordingsReachFile (h : Settled handler s) : s.RecordingsReachFile where
  served := h.served
  written := h.written
  single := by
    have hprogress := h.progress
    cases hthread : s.thread with
    | ready | assigned i =>
      rw [hthread] at hprogress
      exact .inl hprogress
    | writing i | closing i | clearing i =>
      rw [hthread] at hprogress
      exact .inr ⟨i, hprogress⟩
    | flushing i | returning i =>
      rw [hthread] at hprogress
      exact .inl hprogress.1

end Steps

/-- In every run in which each accepted command finds the thread ready or gets its work kept, and at
most one zero-copy recording is accepted, every recording reaches the file. -/
theorem run_recordingsReachFile (handler : RecordingHandler) (keeps : Bool)
    (as : List (RecordAction D)) (t : RecordingControl D)
    (hmeets : Execution.StepsMeet (step handler keeps) (HandsOver handler keeps) (init D) as)
    (hrun : Execution.run (step handler keeps) (init D) as = some t) : t.RecordingsReachFile :=
  (Execution.run_invariant_of_stepsMeet (fun _ _ _ h hc hs => h.step hc hs) settled_init hmeets
    hrun).recordingsReachFile

def twoRecordingsActions : List (RecordAction ℕ) :=
  [.record (some 1), .setWork, .work, .write 10, .record (some 1), .work, .work, .work, .work,
    .record (some 1), .setWork, .work, .write 11, .work]

def twoRecordingsState : RecordingControl ℕ :=
  (Execution.run (step .default false) (init ℕ) twoRecordingsActions).get (by decide)

theorem run_recordingsReachFile_twoRecordings : twoRecordingsState.RecordingsReachFile :=
  run_recordingsReachFile .default false twoRecordingsActions twoRecordingsState
    (Execution.stepsMeet_of_checkSteps (fun _ _ => of_decide_eq_true)
      (by decide : Execution.checkSteps (step .default false)
        (fun s a => decide (HandsOver .default false s a)) (init ℕ) twoRecordingsActions = true))
    (Option.some_get _).symm

def secondZeroCopyActions : List (RecordAction ℕ) :=
  [.record (some 1), .setWork, .work, .write 10, .work, .work, .work, .work,
    .record (some 1), .setWork, .work, .write 11]

def secondZeroCopyState : RecordingControl ℕ :=
  (Execution.run (step .zeroCopy false) (init ℕ) secondZeroCopyActions).get (by decide)

/-- A command that comes before the thread has set the flag passes the tests, and its work is
dropped by a thread that keeps none. -/
def droppedActions : List (RecordAction ℕ) :=
  [.record (some 1), .setWork, .record (some 1), .setWork]

def droppedState : RecordingControl ℕ :=
  (Execution.run (step .default false) (init ℕ) droppedActions).get (by decide)

theorem not_recordingsReachFile_of_secondCommand :
    (¬ ∀ as t, Execution.run (step .zeroCopy false) (init ℕ) as = some t →
      t.RecordingsReachFile) ∧
    ¬ ∀ as t, Execution.run (step .default false) (init ℕ) as = some t →
      t.RecordingsReachFile := by
  refine ⟨fun h => ?_, fun h => ?_⟩
  · have hwritten := (h secondZeroCopyActions secondZeroCopyState (Option.some_get _).symm).written
    revert hwritten
    decide
  · have hserved := (h droppedActions droppedState (Option.some_get _).symm).served 1
      ⟨some 1, .accepted⟩ 1 rfl rfl (by decide)
    simp only [Served] at hserved
    revert hserved
    decide

end RecordingControl
end DataHandling

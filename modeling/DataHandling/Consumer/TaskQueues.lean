import DataHandling.Foundation.BoundedFifo
import DataHandling.Foundation.Execution
import Mathlib.Data.List.FinRange

/-! The queues of `TaskRawDataProcessorModel`, one for each post-processing task, between
`postprocess_item` and the threads. Every access to the run marker or to a queue, every
invocation, and every `set_work` and test of readiness is a step. -/

namespace DataHandling

/-- Where a thread stands in `run_post_processing_thread`. -/
inductive TaskPhase (α : Type*) where
  | ready
  | atMarker
  | atSize
  | atRead
  | invoking (item : α)
  deriving DecidableEq

/-- A task with its queue and its thread, and the items accepted and invoked so far. -/
structure PostProcessTask (α : Type*) (capacity : ℕ) where
  queue : BoundedFifo α capacity
  phase : TaskPhase α
  accepted : List α
  invoked : List α

/-- Where the caller of `start`, `postprocess_item` and `stop` stands, with the tasks that are left
in the loop. -/
inductive CallerPhase (n : ℕ) (α : Type*) where
  | stopped
  | starting (left : List (Fin n))
  | running
  | queueing (item : α) (left : List (Fin n))
  | awaiting (left : List (Fin n))
  deriving DecidableEq

structure TaskRawDataProcessor (n : ℕ) (α : Type*) (capacity : ℕ) where
  runMarker : Bool
  caller : CallerPhase n α
  tasks : Fin n → PostProcessTask α capacity

structure SingleTask (n : ℕ) (α : Type*) (capacity : ℕ) where
  runMarker : Bool
  caller : CallerPhase n α
  task : PostProcessTask α capacity

inductive ProcessorCall (α : Type*) where
  | start
  | postprocessItem (item : α)
  | stop

/-- A call begins, or the caller or a thread takes its next step. -/
inductive TaskAction (n : ℕ) (α : Type*) where
  | call (c : ProcessorCall α)
  | caller
  | thread (j : Fin n)

/-- The beginning of a call, where `start` and `stop` store the run marker. -/
def CallerPhase.call {n : ℕ} {α : Type*} (runMarker : Bool) (caller : CallerPhase n α) :
    ProcessorCall α → Option (Bool × CallerPhase n α)
  | .start =>
    match caller with
    | .stopped => some (true, .starting (List.finRange n))
    | _ => none
  | .postprocessItem item =>
    match caller with
    | .running => some (runMarker, .queueing item (List.finRange n))
    | _ => none
  | .stop =>
    match caller with
    | .running => some (false, .awaiting (List.finRange n))
    | _ => none

namespace PostProcessTask
variable {α : Type*} {capacity : ℕ}

def fresh : PostProcessTask α capacity := ⟨.empty, .ready, [], []⟩

def isReady (x : PostProcessTask α capacity) : Bool := x.phase matches .ready

def setWork (x : PostProcessTask α capacity) : PostProcessTask α capacity :=
  if x.isReady then { x with phase := .atMarker } else x

def write (x : PostProcessTask α capacity) (item : α) : PostProcessTask α capacity :=
  if (x.queue.push item).1 then
    { x with queue := (x.queue.push item).2, accepted := x.accepted ++ [item] }
  else x

def step (runMarker : Bool) (x : PostProcessTask α capacity) :
    Option (PostProcessTask α capacity) :=
  match x.phase with
  | .ready => none
  | .atMarker => some { x with phase := if runMarker then .atRead else .atSize }
  | .atSize => some { x with phase := if x.queue.contents.length > 0 then .atRead else .ready }
  | .atRead =>
    some { x with
      queue := x.queue.take.2.2
      phase :=
        match x.queue.take.2.1 with
        | some item => .invoking item
        | none => .atMarker }
  | .invoking item => some { x with phase := .atMarker, invoked := x.invoked ++ [item] }

def inHand (x : PostProcessTask α capacity) : List α :=
  match x.phase with
  | .invoking item => [item]
  | _ => []

/-- The task has been invoked on the items accepted first, each once and in their order. -/
def InOrder (x : PostProcessTask α capacity) : Prop :=
  x.accepted = x.invoked ++ x.inHand ++ x.queue.contents

end PostProcessTask

namespace TaskRawDataProcessor
variable {n : ℕ} {α : Type*} {capacity : ℕ}

def init (n : ℕ) (α : Type*) (capacity : ℕ) : TaskRawDataProcessor n α capacity where
  runMarker := false
  caller := .stopped
  tasks := fun _ => .fresh

def stepCaller (s : TaskRawDataProcessor n α capacity) :
    Option (TaskRawDataProcessor n α capacity) :=
  match s.caller with
  | .stopped | .running => none
  | .starting [] => some { s with caller := .running }
  | .starting (i :: left) =>
    some { s with
      caller := .starting left
      tasks := Function.update s.tasks i (s.tasks i).setWork }
  | .queueing _ [] => some { s with caller := .running }
  | .queueing item (i :: left) =>
    some { s with
      caller := .queueing item left
      tasks := Function.update s.tasks i ((s.tasks i).write item) }
  | .awaiting [] => some { s with caller := .stopped }
  | .awaiting (i :: left) =>
    if (s.tasks i).isReady then some { s with caller := .awaiting left } else none

def step (s : TaskRawDataProcessor n α capacity) :
    TaskAction n α → Option (TaskRawDataProcessor n α capacity)
  | .call c =>
    (s.caller.call s.runMarker c).map fun (runMarker, caller) =>
      { s with runMarker := runMarker, caller := caller }
  | .caller => s.stepCaller
  | .thread j =>
    ((s.tasks j).step s.runMarker).map fun x => { s with tasks := Function.update s.tasks j x }

def single (s : TaskRawDataProcessor n α capacity) (j : Fin n) : SingleTask n α capacity :=
  ⟨s.runMarker, s.caller, s.tasks j⟩

end TaskRawDataProcessor

namespace SingleTask
variable {n : ℕ} {α : Type*} {capacity : ℕ}

def init (n : ℕ) (α : Type*) (capacity : ℕ) : SingleTask n α capacity :=
  ⟨false, .stopped, .fresh⟩

def stepCaller (j : Fin n) (s : SingleTask n α capacity) : Option (SingleTask n α capacity) :=
  match s.caller with
  | .stopped | .running => none
  | .starting [] => some { s with caller := .running }
  | .starting (i :: left) =>
    some { s with
      caller := .starting left
      task := if i = j then s.task.setWork else s.task }
  | .queueing _ [] => some { s with caller := .running }
  | .queueing item (i :: left) =>
    some { s with
      caller := .queueing item left
      task := if i = j then s.task.write item else s.task }
  | .awaiting [] => some { s with caller := .stopped }
  | .awaiting (i :: left) =>
    if i ≠ j ∨ s.task.isReady then some { s with caller := .awaiting left } else none

def step (j : Fin n) (s : SingleTask n α capacity) :
    TaskAction n α → Option (SingleTask n α capacity)
  | .call c =>
    (s.caller.call s.runMarker c).map fun (runMarker, caller) =>
      { s with runMarker := runMarker, caller := caller }
  | .caller => s.stepCaller j
  | .thread i =>
    if i = j then (s.task.step s.runMarker).map fun x => { s with task := x } else some s

end SingleTask

namespace PostProcessTask
variable {α : Type*} {capacity : ℕ} {runMarker : Bool} {x x' : PostProcessTask α capacity}

/-- What holds of a task between the steps: an accepted item is invoked, in hand or queued, and a
thread leaves its loop after the run marker is down and the queue is empty. -/
structure Sound (runMarker : Bool) (x : PostProcessTask α capacity) : Prop where
  inOrder : x.InOrder
  empty_of_ready : x.phase = .ready → x.queue.contents = []
  marker_of_atSize : x.phase = .atSize → runMarker = false

theorem sound_fresh : Sound runMarker (fresh : PostProcessTask α capacity) where
  inOrder := rfl
  empty_of_ready := fun _ => rfl
  marker_of_atSize := by rintro ⟨⟩

theorem isReady_iff : x.isReady = true ↔ x.phase = .ready := by
  unfold isReady
  cases x.phase <;> simp

theorem Sound.start (h : Sound runMarker x) (hready : x.phase = .ready) (runMarker' : Bool) :
    Sound runMarker' x :=
  ⟨h.inOrder, h.empty_of_ready, fun hsize => by cases hready.symm.trans hsize⟩

theorem Sound.stop (h : Sound runMarker x) : Sound false x :=
  ⟨h.inOrder, h.empty_of_ready, fun _ => rfl⟩

theorem setWork_phase_ne : x.setWork.phase ≠ .ready := by
  unfold setWork
  split_ifs with hready
  · rintro ⟨⟩
  · exact fun heq => hready (isReady_iff.mpr heq)

theorem Sound.setWork (h : Sound runMarker x) : Sound runMarker x.setWork := by
  have hne := x.setWork_phase_ne
  unfold PostProcessTask.setWork at hne ⊢
  split_ifs at hne ⊢ with hready
  · have hphase := isReady_iff.mp hready
    refine ⟨?_, fun heq => absurd heq hne, by rintro ⟨⟩⟩
    have hinOrder := h.inOrder
    unfold InOrder inHand at hinOrder ⊢
    rw [hphase] at hinOrder
    exact hinOrder
  · exact h

theorem write_phase (x : PostProcessTask α capacity) (item : α) :
    (x.write item).phase = x.phase := by
  unfold write
  split_ifs <;> rfl

theorem Sound.write (h : Sound runMarker x) (hne : x.phase ≠ .ready) (item : α) :
    Sound runMarker (x.write item) := by
  have hphase := x.write_phase item
  refine ⟨?_, fun hready => absurd (hphase.symm.trans hready) hne,
    fun hsize => h.marker_of_atSize (hphase.symm.trans hsize)⟩
  have hinOrder := h.inOrder
  unfold PostProcessTask.write BoundedFifo.push
  split_ifs with hroom htrue htrue
  · unfold InOrder at hinOrder ⊢
    simp only [hinOrder, inHand, List.append_assoc]
  · exact absurd rfl htrue
  · cases htrue
  · exact hinOrder

theorem Sound.step (h : Sound runMarker x) (hstep : x.step runMarker = some x') :
    Sound runMarker x' := by
  have hinOrder := h.inOrder
  obtain ⟨queue, phase, accepted, invoked⟩ := x
  cases phase with
  | ready => cases hstep
  | atMarker =>
    cases hstep
    cases runMarker with
    | true => exact ⟨hinOrder, by rintro ⟨⟩, by rintro ⟨⟩⟩
    | false => exact ⟨hinOrder, by rintro ⟨⟩, fun _ => rfl⟩
  | atSize =>
    by_cases hpos : queue.contents.length > 0
    · rw [PostProcessTask.step, if_pos hpos] at hstep
      cases hstep
      exact ⟨hinOrder, by rintro ⟨⟩, by rintro ⟨⟩⟩
    · rw [PostProcessTask.step, if_neg hpos] at hstep
      cases hstep
      have hempty := List.eq_nil_of_length_eq_zero (Nat.eq_zero_of_not_pos hpos)
      exact ⟨hinOrder, fun _ => hempty, by rintro ⟨⟩⟩
  | atRead =>
    -- the oldest item goes from the queue into the hand
    obtain ⟨contents, bounded⟩ := queue
    cases contents with
    | nil =>
      cases hstep
      exact ⟨hinOrder, by rintro ⟨⟩, by rintro ⟨⟩⟩
    | cons item items =>
      cases hstep
      have haccepted : accepted = invoked ++ [] ++ item :: items := hinOrder
      refine ⟨haccepted.trans ?_, by rintro ⟨⟩, by rintro ⟨⟩⟩
      change _ = invoked ++ [item] ++ items
      simp only [List.append_nil, List.append_assoc, List.singleton_append]
  | invoking item =>
    cases hstep
    have haccepted : accepted = invoked ++ [item] ++ queue.contents := hinOrder
    refine ⟨haccepted.trans ?_, by rintro ⟨⟩, by rintro ⟨⟩⟩
    change _ = invoked ++ [item] ++ [] ++ queue.contents
    rw [List.append_nil]

theorem Sound.step_phase_ne (h : Sound true x) (hstep : x.step true = some x') :
    x'.phase ≠ .ready := by
  have hsize := h.marker_of_atSize
  obtain ⟨queue, phase, accepted, invoked⟩ := x
  cases phase with
  | ready => cases hstep
  | atMarker =>
    cases hstep
    rintro ⟨⟩
  | atSize => cases hsize rfl
  | atRead =>
    cases hstep
    cases queue.take.2.1 <;> rintro ⟨⟩
  | invoking item =>
    cases hstep
    rintro ⟨⟩

theorem step_of_ready (hphase : x.phase = .ready) : x.step runMarker = none := by
  simp only [step, hphase]

end PostProcessTask

namespace TaskRawDataProcessor
variable {n : ℕ} {α : Type*} {capacity : ℕ} {s s' : TaskRawDataProcessor n α capacity}

/-- Which threads are at work, and that the run marker is up until `stop`. -/
def Agrees (runMarker : Bool) (tasks : Fin n → PostProcessTask α capacity) :
    CallerPhase n α → Prop
  | .stopped => ∀ j, (tasks j).phase = .ready
  | .starting left => runMarker = true ∧ ∀ j, j ∉ left → (tasks j).phase ≠ .ready
  | .running | .queueing _ _ => runMarker = true ∧ ∀ j, (tasks j).phase ≠ .ready
  | .awaiting left => ∀ j, j ∉ left → (tasks j).phase = .ready

structure Settled (s : TaskRawDataProcessor n α capacity) : Prop where
  sound : ∀ j, (s.tasks j).Sound s.runMarker
  agrees : Agrees s.runMarker s.tasks s.caller

theorem settled_init : Settled (init n α capacity) where
  sound := fun _ => PostProcessTask.sound_fresh
  agrees := fun _ => rfl

theorem call_cases {runMarker : Bool} {caller : CallerPhase n α} {c : ProcessorCall α}
    {p : Bool × CallerPhase n α} (h : caller.call runMarker c = some p) :
    caller = .stopped ∧ p = (true, .starting (List.finRange n)) ∨
      (∃ item, caller = .running ∧ p = (runMarker, .queueing item (List.finRange n))) ∨
      caller = .running ∧ p = (false, .awaiting (List.finRange n)) := by
  cases c with
  | start =>
    cases caller <;> cases h
    exact .inl ⟨rfl, rfl⟩
  | postprocessItem item =>
    cases caller <;> cases h
    exact .inr (.inl ⟨item, rfl, rfl⟩)
  | stop =>
    cases caller <;> cases h
    exact .inr (.inr ⟨rfl, rfl⟩)

theorem Settled.call {c : ProcessorCall α} (h : Settled s) (hstep : s.step (.call c) = some s') :
    Settled s' := by
  obtain ⟨p, hcall, rfl⟩ := Option.map_eq_some_iff.mp hstep
  have hagrees := h.agrees
  obtain ⟨hcaller, rfl⟩ | ⟨item, hcaller, rfl⟩ | ⟨hcaller, rfl⟩ := call_cases hcall
  all_goals rw [hcaller] at hagrees
  · exact ⟨fun j => (h.sound j).start (hagrees j) true, rfl,
      fun j hj => absurd (List.mem_finRange j) hj⟩
  · exact ⟨h.sound, hagrees⟩
  · exact ⟨fun j => (h.sound j).stop, fun j hj => absurd (List.mem_finRange j) hj⟩

theorem Settled.update (h : Settled s) {i : Fin n} {x : PostProcessTask α capacity}
    (hx : x.Sound s.runMarker) (j : Fin n) :
    (Function.update s.tasks i x j).Sound s.runMarker :=
  (Function.forall_update_iff s.tasks (p := fun _ x => x.Sound s.runMarker)).mpr
    ⟨hx, fun j _ => h.sound j⟩ j

theorem Settled.caller (h : Settled s) (hstep : s.stepCaller = some s') : Settled s' := by
  have hagrees := h.agrees
  unfold stepCaller at hstep
  split at hstep
  · cases hstep
  · cases hstep
  · rename_i hcaller
    cases hstep
    rw [hcaller] at hagrees
    exact ⟨h.sound, hagrees.1, fun j => hagrees.2 j List.not_mem_nil⟩
  · rename_i i left hcaller
    cases hstep
    rw [hcaller] at hagrees
    refine ⟨h.update (h.sound i).setWork, hagrees.1, ?_⟩
    refine (Function.forall_update_iff s.tasks
      (p := fun j x => j ∉ left → x.phase ≠ .ready)).mpr ⟨fun _ => ?_, fun j hji hj => ?_⟩
    · exact PostProcessTask.setWork_phase_ne
    · exact hagrees.2 j (fun hmem => (List.mem_cons.mp hmem).elim hji hj)
  · rename_i hcaller
    cases hstep
    rw [hcaller] at hagrees
    exact ⟨h.sound, hagrees⟩
  · rename_i item i left hcaller
    cases hstep
    rw [hcaller] at hagrees
    refine ⟨h.update ((h.sound i).write (hagrees.2 i) item), hagrees.1, ?_⟩
    refine (Function.forall_update_iff s.tasks (p := fun _ x => x.phase ≠ .ready)).mpr
      ⟨?_, fun j _ => hagrees.2 j⟩
    rw [PostProcessTask.write_phase]
    exact hagrees.2 i
  · rename_i hcaller
    cases hstep
    rw [hcaller] at hagrees
    exact ⟨h.sound, fun j => hagrees j List.not_mem_nil⟩
  · rename_i i left hcaller
    rw [hcaller] at hagrees
    split_ifs at hstep with hready
    cases hstep
    refine ⟨h.sound, fun j hj => ?_⟩
    by_cases hji : j = i
    · subst hji
      exact PostProcessTask.isReady_iff.mp hready
    · exact hagrees j (fun hmem => (List.mem_cons.mp hmem).elim hji hj)

/-- A thread at work stays at work until `stop`, and a thread that is ready stays ready. -/
theorem Settled.thread (h : Settled s) {i : Fin n} {x : PostProcessTask α capacity}
    (hx : (s.tasks i).step s.runMarker = some x) :
    Settled { s with tasks := Function.update s.tasks i x } := by
  have hbusy : (s.tasks i).phase ≠ .ready := fun hready => by
    rw [PostProcessTask.step_of_ready hready] at hx
    cases hx
  have hwork : s.runMarker = true → ∀ j, (s.tasks j).phase ≠ .ready →
      (Function.update s.tasks i x j).phase ≠ .ready := fun hmarker => by
    refine (Function.forall_update_iff s.tasks (p := fun j x =>
      (s.tasks j).phase ≠ .ready → x.phase ≠ .ready)).mpr ⟨fun _ => ?_, fun _ _ => id⟩
    have hsound := h.sound i
    rw [hmarker] at hsound hx
    exact hsound.step_phase_ne hx
  have hready : ∀ j, (s.tasks j).phase = .ready → (Function.update s.tasks i x j).phase = .ready :=
    fun j hj => by
      have hji : j ≠ i := fun heq => hbusy (heq ▸ hj)
      rwa [Function.update_of_ne hji]
  refine ⟨h.update ((h.sound i).step hx), ?_⟩
  have hagrees := h.agrees
  cases hcaller : s.caller with
  | stopped =>
    rw [hcaller] at hagrees
    exact fun j => hready j (hagrees j)
  | starting left =>
    rw [hcaller] at hagrees
    exact ⟨hagrees.1, fun j hj => hwork hagrees.1 j (hagrees.2 j hj)⟩
  | running =>
    rw [hcaller] at hagrees
    exact ⟨hagrees.1, fun j => hwork hagrees.1 j (hagrees.2 j)⟩
  | queueing item left =>
    rw [hcaller] at hagrees
    exact ⟨hagrees.1, fun j => hwork hagrees.1 j (hagrees.2 j)⟩
  | awaiting left =>
    rw [hcaller] at hagrees
    exact fun j hj => hready j (hagrees j hj)

theorem Settled.step {a : TaskAction n α} (h : Settled s) (hstep : s.step a = some s') :
    Settled s' := by
  cases a with
  | call c => exact h.call hstep
  | caller => exact h.caller hstep
  | thread j =>
    obtain ⟨x, hx, rfl⟩ := Option.map_eq_some_iff.mp hstep
    exact h.thread hx

theorem Settled.drained (h : Settled s) (hstopped : s.caller = .stopped) (j : Fin n) :
    (s.tasks j).invoked = (s.tasks j).accepted := by
  have hagrees := h.agrees
  rw [hstopped] at hagrees
  have hinOrder := (h.sound j).inOrder
  unfold PostProcessTask.InOrder PostProcessTask.inHand at hinOrder
  rw [(h.sound j).empty_of_ready (hagrees j), hagrees j, List.append_nil, List.append_nil]
    at hinOrder
  exact hinOrder.symm

theorem update_task (i j : Fin n) (f : PostProcessTask α capacity → PostProcessTask α capacity) :
    Function.update s.tasks i (f (s.tasks i)) j =
      if i = j then f (s.tasks j) else s.tasks j := by
  split_ifs with heq
  · subst heq
    rw [Function.update_self]
  · rw [Function.update_of_ne (Ne.symm heq)]

theorem stepCaller_single (j : Fin n) (hstep : s.stepCaller = some s') :
    (s.single j).stepCaller j = some (s'.single j) := by
  unfold stepCaller at hstep
  unfold SingleTask.stepCaller
  split at hstep
  · cases hstep
  · cases hstep
  · rename_i hcaller
    cases hstep
    simp only [single, hcaller]
  · rename_i i left hcaller
    cases hstep
    simp only [single, hcaller, update_task i j PostProcessTask.setWork]
  · rename_i hcaller
    cases hstep
    simp only [single, hcaller]
  · rename_i item i left hcaller
    cases hstep
    simp only [single, hcaller, update_task i j fun x => x.write item]
  · rename_i hcaller
    cases hstep
    simp only [single, hcaller]
  · rename_i i left hcaller
    split_ifs at hstep with hready
    cases hstep
    have hpass : i ≠ j ∨ (s.tasks j).isReady = true := by
      by_cases heq : i = j
      · exact .inr (heq ▸ hready)
      · exact .inl heq
    simp only [single, hcaller, if_pos hpass]

theorem step_single (j : Fin n) (a : TaskAction n α) (hstep : s.step a = some s') :
    SingleTask.step j (s.single j) a = some (s'.single j) := by
  cases a with
  | call c =>
    obtain ⟨p, hcall, rfl⟩ := Option.map_eq_some_iff.mp hstep
    exact Option.map_eq_some_iff.mpr ⟨p, hcall, rfl⟩
  | caller => exact stepCaller_single j hstep
  | thread i =>
    obtain ⟨x, hx, rfl⟩ := Option.map_eq_some_iff.mp hstep
    simp only [SingleTask.step, single]
    split_ifs with heq
    · subst heq
      rw [Function.update_self]
      exact Option.map_eq_some_iff.mpr ⟨x, hx, rfl⟩
    · rw [Function.update_of_ne (Ne.symm heq)]

/-- In every run, each task is invoked on the items that its own queue accepted, each once and in
their order, and on all of them when `stop` has returned; and what a task comes to is settled
without the other queues. -/
theorem run_tasksDrain (n : ℕ) (α : Type*) (capacity : ℕ) (as : List (TaskAction n α))
    (t : TaskRawDataProcessor n α capacity)
    (hrun : Execution.run step (init n α capacity) as = some t) :
    (∀ j, (t.tasks j).InOrder) ∧
      (t.caller = .stopped → ∀ j, (t.tasks j).invoked = (t.tasks j).accepted) ∧
      ∀ j, Execution.run (SingleTask.step j) (.init n α capacity) as = some (t.single j) := by
  have hsettled : Settled t :=
    Execution.run_invariant (fun _ _ _ h hs => h.step hs) settled_init hrun
  refine ⟨fun j => (hsettled.sound j).inOrder, hsettled.drained, fun j => ?_⟩
  exact Execution.run_map (f := fun s => s.single j) (fun _ a _ hs => step_single j a hs) hrun

/-- Two tasks with room for one item: the first takes both items, the second has no room for the
other one, and `stop` lets both drain their queues. -/
def fullQueueActions : List (TaskAction 2 ℕ) :=
  [.call .start, .caller, .caller, .caller,
    .call (.postprocessItem 7), .caller, .caller, .caller,
    .thread 0, .thread 0, .call (.postprocessItem 8), .caller, .caller, .caller,
    .thread 0, .call .stop, .thread 0, .thread 0, .thread 0, .thread 0,
    .thread 0, .thread 0, .caller,
    .thread 1, .thread 1, .thread 1, .thread 1, .thread 1, .thread 1, .caller, .caller]

def fullQueueState : TaskRawDataProcessor 2 ℕ 1 :=
  (Execution.run step (init 2 ℕ 1) fullQueueActions).get (by decide)

theorem run_tasksDrain_fullQueue :
    (fullQueueState.tasks 1).accepted = [7] ∧
      ∀ j, (fullQueueState.tasks j).invoked = (fullQueueState.tasks j).accepted :=
  ⟨by decide,
    (run_tasksDrain 2 ℕ 1 fullQueueActions fullQueueState (Option.some_get _).symm).2.1 (by decide)⟩

end TaskRawDataProcessor
end DataHandling

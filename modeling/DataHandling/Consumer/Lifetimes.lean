import DataHandling.Chunk
import DataHandling.Consumer.PostProcessing

/-! The lifetime of what post-processing works on. A task finds the element that its pointer was
taken for if the pointer designated an element when it was taken, and if nothing is popped from
under a pointer that is on its way to a task. -/

namespace DataHandling
open ReadoutType IterableQueueModel

/-- The slot still holds the very element that was there when the pointer was taken. -/
def Invocation.Intact {T Slot : Type} (x : Invocation T Slot) : Prop :=
  ∀ p ∈ x.pointer, p.element.isSome ∧ x.found = p.element

namespace PostProcessingSystem
variable {LB T P Slot : Type} {queueSizes : ℕ} [ReadoutType T] [DecidableEq Slot]
  [LatencyBuffer LB T] [BufferSlots LB T Slot]

def takenSlot (s : PostProcessingSystem LB T P Slot queueSizes) :
    PostProcessingAction T → Option Slot
  | .postprocess => if s.phase matches .written then BufferSlots.backSlot s.latencyBuffer else none
  | .nextPointer =>
    match s.work with
    | .passing it endIter => if it = endIter then none else some it
    | _ => none
  | _ => none

/-- The step pops an element, for a cleanup or for the flush of `stop`. -/
def pops (s : PostProcessingSystem LB T P Slot queueSizes) : PostProcessingAction T → Bool
  | .cleanup (.popOne nextTimestampToRecord) =>
    match s.cleanupPhase with
    | .popping (_ + 1) =>
      (LatencyBuffer.front s.latencyBuffer).any fun front =>
        decide (getTimestamp front < nextTimestampToRecord)
    | _ => false
  | .stopping =>
    match s.stopPhase with
    | .popping (_ + 1) => true
    | _ => false
  | _ => false

/-- A pointer is taken to a slot that holds an element, and what is popped is not designated by a
pointer on its way to a task. -/
def LeavesPointers (s : PostProcessingSystem LB T P Slot queueSizes) (a : PostProcessingAction T) :
    Prop :=
  (∀ slot ∈ s.takenSlot a, (BufferSlots.content s.latencyBuffer slot).isSome) ∧
    (s.pops a = true → ∀ pointer ∈ s.pending, ∀ p ∈ pointer,
      p.slot ≠ BufferSlots.popSlot s.latencyBuffer)

instance (s : PostProcessingSystem LB T P Slot queueSizes) (a : PostProcessingAction T) :
    Decidable (LeavesPointers s a) :=
  haveI : ∀ pointer : Option (SlotPointer T Slot),
      Decidable (∀ p ∈ pointer, p.slot ≠ BufferSlots.popSlot s.latencyBuffer) :=
    fun pointer => Option.decidableForallMem pointer
  haveI : Decidable (∀ slot ∈ s.takenSlot a,
      (BufferSlots.content s.latencyBuffer slot).isSome = true) :=
    Option.decidableForallMem _
  inferInstanceAs (Decidable (_ ∧ (_ → _)))

section Cases
variable {callbackMode : Bool} {conf : ConsumerConf T P}
  {s s' : PostProcessingSystem LB T P Slot queueSizes}

/-- What a step can do to the buffer, to the pointers on their way, and to the invocations. -/
inductive StepCases (s : PostProcessingSystem LB T P Slot queueSizes) (a : PostProcessingAction T)
    (s' : PostProcessingSystem LB T P Slot queueSizes) : Prop where
  | kept (hbuffer : s'.latencyBuffer = s.latencyBuffer) (hnumbers : s'.numbers = s.numbers)
      (hpending : s'.pending ⊆ s.pending) (hinvocations : s'.invocations = s.invocations)
  | taken (pointer : Option (SlotPointer T Slot))
      (hpointer : pointer = (s.takenSlot a).map s.pointTo)
      (hbuffer : s'.latencyBuffer = s.latencyBuffer) (hnumbers : s'.numbers = s.numbers)
      (hpending : s'.pending ⊆ pointer :: s.pending) (hinvocations : s'.invocations = s.invocations)
  | written (payload : T)
      (hbuffer : s'.latencyBuffer = (LatencyBuffer.write s.latencyBuffer payload).2)
      (hnumbers : s'.numbers =
        if (LatencyBuffer.write s.latencyBuffer payload).1 then
          Function.update s.numbers (BufferSlots.writeSlot s.latencyBuffer payload)
            (s.accepted.length + 1)
        else s.numbers)
      (hpending : s'.pending = s.pending) (hinvocations : s'.invocations = s.invocations)
  | popped (hpops : s.pops a = true)
      (hpop : LatencyBuffer.pop 1 s.latencyBuffer = some s'.latencyBuffer)
      (hnumbers : s'.numbers = s.numbers) (hpending : s'.pending = s.pending)
      (hinvocations : s'.invocations = s.invocations)
  | invoked (pointer : Option (SlotPointer T Slot)) (hpointer : pointer ∈ s.pending)
      (hbuffer : s'.latencyBuffer = s.latencyBuffer) (hnumbers : s'.numbers = s.numbers)
      (hpending : s'.pending ⊆ s.pending)
      (hinvocations : s'.invocations =
        s.invocations ++ [⟨pointer, pointer.bind fun p => s.elementAt p.slot⟩])

omit [ReadoutType T] [DecidableEq Slot] [LatencyBuffer LB T] [BufferSlots LB T Slot] in
theorem pointers_set {xs : List (PostProcessor T Slot queueSizes)} {i : ℕ}
    {x x' : PostProcessor T Slot queueSizes} (ps : List (Option (SlotPointer T Slot)))
    (hi : xs[i]? = some x) (hx : ∀ p ∈ x'.pointers, p ∈ x.pointers ∨ p ∈ ps) :
    ∀ p ∈ (xs.set i x').flatMap PostProcessor.pointers,
      p ∈ xs.flatMap PostProcessor.pointers ∨ p ∈ ps := by
  intro p hp
  obtain ⟨y, hy, hpy⟩ := List.mem_flatMap.mp hp
  rcases List.mem_or_eq_of_mem_set hy with hmem | rfl
  · exact .inl (List.mem_flatMap.mpr ⟨y, hmem, hpy⟩)
  · rcases hx p hpy with hold | hnew
    · exact .inl (List.mem_flatMap.mpr ⟨x, List.mem_of_getElem? hi, hold⟩)
    · exact .inr hnew

omit [DecidableEq Slot] [BufferSlots LB T Slot] in
theorem pops_of_popOne {c : ConsumerSystem LB T P} {ts : UInt64}
    (hstep : ConsumerSystem.step conf s.toConsumerSystem (.popOne ts) = some c) :
    c.latencyBuffer = s.latencyBuffer ∨ s.pops (.cleanup (.popOne ts)) = true ∧
      LatencyBuffer.pop 1 s.latencyBuffer = some c.latencyBuffer := by
  simp only [ConsumerSystem.step] at hstep
  split at hstep
  · next left hphase =>
    cases left with
    | zero =>
      cases hstep
      exact .inl rfl
    | succ left =>
      obtain ⟨front, hfront, hstep⟩ := Option.bind_eq_some_iff.mp hstep
      split_ifs at hstep with hlt
      · obtain ⟨lb, hpop, rfl⟩ := Option.map_eq_some_iff.mp hstep
        refine .inr ⟨?_, hpop⟩
        simp only [pops, hphase, hfront, Option.any_some, hlt, decide_true]
      · cases hstep
        exact .inl rfl
  · cases hstep

theorem lift_cases {a : PostProcessingAction T} {action : ConsumerAction T}
    (haction : action = .startCleanup ∨ action = .removeErrors ∨
      (∃ payload ts callback, action = .preprocess payload ts callback) ∨
      ∃ ts, action = .popOne ts ∧ a = .cleanup (.popOne ts))
    (hlift : s.lift conf action = some s') : StepCases s a s' := by
  obtain ⟨c, hc, rfl⟩ := Option.map_eq_some_iff.mp hlift
  rcases haction with rfl | rfl | ⟨payload, ts, callback, rfl⟩ | ⟨ts, rfl, rfl⟩
  · cases ConsumerSystem.step_cases hc with
    | cleanup => exact .kept rfl rfl (List.Subset.refl _) rfl
  · cases ConsumerSystem.step_cases hc with
    | cleanup ha => simp at ha
    | removeErrors => exact .kept rfl rfl (List.Subset.refl _) rfl
  · cases ConsumerSystem.step_cases hc with
    | preprocess => exact .kept rfl rfl (List.Subset.refl _) rfl
    | cleanup ha => simp at ha
  · rcases pops_of_popOne hc with hbuffer | ⟨hpops, hpop⟩
    · exact .kept hbuffer rfl (List.Subset.refl _) rfl
    · exact .popped hpops hpop rfl rfl rfl

theorem stopping_cases (hstep : s.stopping = some s') : StepCases s .stopping s' := by
  rw [stopping] at hstep
  split at hstep
  · cases hstep
  · cases hstep
  · split_ifs at hstep
    cases hstep
    exact .kept rfl rfl (List.Subset.refl _) rfl
  · split_ifs at hstep
    cases hstep
    exact .kept rfl rfl (List.Subset.refl _) rfl
  · cases hstep
    exact .kept rfl rfl (List.Subset.refl _) rfl
  · cases hstep
    exact .kept rfl rfl (List.Subset.refl _) rfl
  · next left hphase =>
    obtain ⟨lb, hpop, rfl⟩ := Option.map_eq_some_iff.mp hstep
    exact .popped (by simp only [pops, hphase]) hpop rfl rfl rfl
  · cases hstep
    exact .kept rfl rfl (List.Subset.refl _) rfl
  · split_ifs at hstep
    cases hstep
    exact .kept rfl rfl (List.Subset.refl _) rfl

theorem startPass_cases (hwork : s.work matches .idle) (hstep : s.startPass conf = some s') :
    StepCases s .startPass s' := by
  have hidle : s.work = .idle := by
    cases hw : s.work <;> simp_all
  rw [startPass] at hstep
  split_ifs at hstep
  · cases hstep
    exact .kept rfl rfl (List.Subset.refl _) rfl
  · obtain ⟨tail, _, hstep⟩ := Option.bind_eq_some_iff.mp hstep
    obtain ⟨processed, _, hstep⟩ := Option.bind_eq_some_iff.mp hstep
    split_ifs at hstep
    · obtain ⟨startIter, _, hstep⟩ := Option.bind_eq_some_iff.mp hstep
      obtain ⟨endIter, _, rfl⟩ := Option.map_eq_some_iff.mp hstep
      refine .kept rfl rfl ?_ rfl
      simp only [pending, hidle, PointerWork.pointers]
      exact List.Subset.refl _
    · cases hstep
      exact .kept rfl rfl (List.Subset.refl _) rfl

theorem postprocess_cases (hstep : s.postprocess = some s') : StepCases s .postprocess s' := by
  rw [postprocess] at hstep
  split at hstep
  · next hphase =>
    cases hstep
    refine .taken ((BufferSlots.backSlot s.latencyBuffer).map s.pointTo) ?_ rfl rfl ?_ rfl
    · simp only [takenSlot, hphase, if_true]
    · intro p hp
      rcases List.mem_append.mp hp with hnew | hold
      · rw [PointerWork.pointers, List.mem_singleton] at hnew
        exact hnew ▸ List.mem_cons_self
      · exact List.mem_cons_of_mem _ (List.mem_append_right _ hold)
  · cases hstep

theorem nextPointer_cases (hstep : s.nextPointer = some s') : StepCases s .nextPointer s' := by
  rw [nextPointer] at hstep
  split at hstep
  · next it endIter hwork =>
    cases hstep
    by_cases hend : it = endIter
    · refine .kept rfl rfl ?_ rfl
      simp only [pending, hend, if_true, PointerWork.pointers, hwork]
      exact List.Subset.refl _
    · refine .taken (some (s.pointTo it)) ?_ rfl rfl ?_ rfl
      · simp only [takenSlot, hwork, hend, if_false, Option.map_some]
      · intro p hp
        simp only [pending, if_neg hend, PointerWork.pointers] at hp
        rcases List.mem_append.mp hp with hnew | hold
        · exact List.mem_singleton.mp hnew ▸ List.mem_cons_self
        · exact List.mem_cons_of_mem _ (List.mem_append_right _ hold)
  · cases hstep

theorem queueWrite_cases (hstep : s.queueWrite = some s') : StepCases s .queueWrite s' := by
  rw [queueWrite] at hstep
  split at hstep
  · next pointer i pass hwork =>
    split at hstep
    · next x hx =>
      cases hstep
      refine .kept rfl rfl (fun p hp => ?_) rfl
      rcases List.mem_append.mp hp with hnew | hold
      · exact List.mem_append_left _ (by rwa [hwork])
      · have hset := pointers_set [pointer] hx (fun p hp => ?_) p hold
        · rcases hset with hmem | hmem
          · exact List.mem_append_right _ hmem
          · exact List.mem_append_left _ (by rwa [hwork])
        · rcases List.mem_append.mp hp with hqueue | hthread
          · rcases BoundedFifo.mem_of_mem_push hqueue with hmem | rfl
            · exact .inl (List.mem_append_left _ hmem)
            · exact .inr (List.mem_singleton_self _)
          · exact .inl (List.mem_append_right _ hthread)
    · cases hstep
      refine .kept rfl rfl (fun p hp => ?_) rfl
      rcases List.mem_append.mp hp with hnew | hold
      · cases pass <;> cases hnew
      · exact List.mem_append_right _ hold
  · cases hstep

omit [ReadoutType T] [DecidableEq Slot] in
theorem mem_pointers_of_empty {x : PostProcessor T Slot queueSizes} {thread : TaskThread T Slot}
    (hthread : thread.pointers = []) :
    ∀ p ∈ ({ x with thread := thread } : PostProcessor T Slot queueSizes).pointers,
      p ∈ x.pointers := by
  intro p hp
  rw [PostProcessor.pointers, hthread, List.append_nil] at hp
  exact List.mem_append_left _ hp

theorem thread_cases {i : ℕ} {x : PostProcessor T Slot queueSizes} (hi : s.processors[i]? = some x)
    (hstep : s.stepThread i x = some s') : StepCases s (.thread i) s' := by
  have hmem : ∀ p ∈ x.pointers, p ∈ s.pending := fun p hp =>
    List.mem_append_right _ (List.mem_flatMap.mpr ⟨x, List.mem_of_getElem? hi, hp⟩)
  have hset : ∀ x' : PostProcessor T Slot queueSizes, (∀ p ∈ x'.pointers, p ∈ x.pointers) →
      s.work.pointers ++ (s.processors.set i x').flatMap PostProcessor.pointers ⊆ s.pending := by
    intro x' hx' p hp
    rcases List.mem_append.mp hp with hwork | hthread
    · exact List.mem_append_left _ hwork
    · rcases pointers_set [] hi (fun p hp => .inl (hx' p hp)) p hthread with h | h
      · exact List.mem_append_right _ h
      · cases h
  rw [stepThread] at hstep
  split at hstep
  · cases hstep
  · cases hstep
    refine .kept rfl rfl (hset _ (mem_pointers_of_empty ?_)) rfl
    split_ifs <;> rfl
  · cases hstep
    refine .kept rfl rfl (hset _ (mem_pointers_of_empty ?_)) rfl
    split_ifs <;> rfl
  · cases hstep
    refine .kept rfl rfl (hset _ fun p hp => ?_) rfl
    rcases List.mem_append.mp hp with hqueue | hthread
    · exact List.mem_append_left _ (BoundedFifo.mem_of_mem_take hqueue)
    · cases htake : x.queue.take.2.1 with
      | none => simp [htake, TaskThread.pointers] at hthread
      | some pointer =>
        simp only [htake, TaskThread.pointers, List.mem_singleton] at hthread
        exact List.mem_append_left _ (hthread ▸ BoundedFifo.mem_of_take htake)
  · next pointer hthread =>
    cases hstep
    refine .invoked pointer (hmem _ ?_) rfl rfl (hset _ (mem_pointers_of_empty rfl)) rfl
    rw [PostProcessor.pointers, hthread]
    exact List.mem_append_right _ (List.mem_singleton_self _)

theorem start_cases : StepCases s .start (s.start callbackMode) := by
  refine .kept rfl rfl (fun p hp => ?_) rfl
  rcases List.mem_append.mp hp with hwork | hthread
  · exact List.mem_append_left _ hwork
  · obtain ⟨y, hy, hpy⟩ := List.mem_flatMap.mp hthread
    obtain ⟨x, hx, rfl⟩ := List.mem_map.mp hy
    exact List.mem_append_right _
      (List.mem_flatMap.mpr ⟨x, hx, mem_pointers_of_empty rfl p hpy⟩)

theorem step_cases {a : PostProcessingAction T} (hstep : step callbackMode conf s a = some s') :
    StepCases s a s' := by
  cases a with
  | start =>
    simp only [step] at hstep
    split_ifs at hstep
    cases hstep
    exact start_cases
  | stop | consumerThreadEnds | cleanupThreadEnds =>
    simp only [step] at hstep
    split_ifs at hstep
    cases hstep
    exact .kept rfl rfl (List.Subset.refl _) rfl
  | stopping => exact stopping_cases hstep
  | preprocess payload cutoffTimestamp =>
    simp only [step] at hstep
    split_ifs at hstep
    exact lift_cases (.inr (.inr (.inl ⟨_, _, _, rfl⟩))) hstep
  | write =>
    rw [step, write] at hstep
    split at hstep
    · cases hstep
      exact .written _ rfl rfl rfl rfl
    · cases hstep
  | postprocess => exact postprocess_cases hstep
  | startPass =>
    simp only [step] at hstep
    split_ifs at hstep with hidle
    have hconsumes := hidle.2.1
    rw [consumes, Bool.and_eq_true] at hconsumes
    exact startPass_cases hconsumes.2 hstep
  | nextPointer => exact nextPointer_cases hstep
  | queueWrite => exact queueWrite_cases hstep
  | cleanup action =>
    simp only [step] at hstep
    split at hstep
    · exact lift_cases (.inl rfl) hstep
    · exact lift_cases (.inr (.inr (.inr ⟨_, rfl, rfl⟩))) hstep
    · exact lift_cases (.inr (.inl rfl)) hstep
    · cases hstep
  | thread i =>
    obtain ⟨x, hx, hstep⟩ := Option.bind_eq_some_iff.mp hstep
    exact thread_cases hx hstep

end Cases

def Designates (s : PostProcessingSystem LB T P Slot queueSizes) (p : SlotPointer T Slot) : Prop :=
  p.element.isSome ∧ s.elementAt p.slot = p.element

/-- The pointers on their way and the past invocations are intact. -/
structure Intact (s : PostProcessingSystem LB T P Slot queueSizes) : Prop where
  wellFormed : BufferSlots.WellFormed s.latencyBuffer
  pending : ∀ pointer ∈ s.pending, ∀ p ∈ pointer, s.Designates p
  invocations : ∀ x ∈ s.invocations, x.Intact

section Intact
variable {callbackMode : Bool} {conf : ConsumerConf T P}
  {s s' : PostProcessingSystem LB T P Slot queueSizes} {p : SlotPointer T Slot}

omit [ReadoutType T] in
theorem elementAt_congr (hbuffer : s'.latencyBuffer = s.latencyBuffer)
    (hnumbers : s'.numbers = s.numbers) (slot : Slot) : s'.elementAt slot = s.elementAt slot := by
  rw [elementAt, elementAt, hbuffer, hnumbers]

omit [ReadoutType T] in
theorem Designates.congr (h : s.Designates p) (hp : s'.elementAt p.slot = s.elementAt p.slot) :
    s'.Designates p := ⟨h.1, hp.trans h.2⟩

omit [ReadoutType T] in
theorem Designates.content_isSome (h : s.Designates p) :
    (BufferSlots.content s.latencyBuffer p.slot).isSome := by
  have hsome := h.1
  rw [← h.2, elementAt, Option.isSome_map] at hsome
  exact hsome

omit [ReadoutType T] in
theorem elementAt_write {payload : T} (hwell : BufferSlots.WellFormed s.latencyBuffer)
    (hbuffer : s'.latencyBuffer = (LatencyBuffer.write s.latencyBuffer payload).2)
    (hnumbers : s'.numbers =
      if (LatencyBuffer.write s.latencyBuffer payload).1 then
        Function.update s.numbers (BufferSlots.writeSlot s.latencyBuffer payload)
          (s.accepted.length + 1)
      else s.numbers) {slot : Slot} (hslot : (BufferSlots.content s.latencyBuffer slot).isSome) :
    s'.elementAt slot = s.elementAt slot := by
  rw [elementAt, elementAt, hbuffer, hnumbers]
  cases hwrite : (LatencyBuffer.write s.latencyBuffer payload).1 with
  | true =>
    have hne : slot ≠ BufferSlots.writeSlot s.latencyBuffer payload := by
      rintro rfl
      rw [BufferSlots.content_writeSlot hwell hwrite] at hslot
      cases hslot
    rw [BufferSlots.content_accepted hwrite, if_pos rfl, Function.update_of_ne hne,
      Function.update_of_ne hne]
  | false => rw [BufferSlots.content_rejected hwrite, if_neg Bool.false_ne_true]

theorem step_intact {a : PostProcessingAction T} (h : Intact s) (hleaves : LeavesPointers s a)
    (hstep : step callbackMode conf s a = some s') : Intact s' := by
  obtain ⟨hwell, hpending, hinvocations⟩ := h
  cases step_cases hstep with
  | kept hbuffer hnumbers hsub hinv =>
    refine ⟨hbuffer ▸ hwell, fun pointer hp p hmem => ?_, hinv ▸ hinvocations⟩
    exact (hpending pointer (hsub hp) p hmem).congr (elementAt_congr hbuffer hnumbers _)
  | taken pointer hpointer hbuffer hnumbers hsub hinv =>
    refine ⟨hbuffer ▸ hwell, fun pointer' hp p hmem => ?_, hinv ▸ hinvocations⟩
    have hcongr := elementAt_congr hbuffer hnumbers p.slot
    rcases List.mem_cons.mp (hsub hp) with rfl | hold
    · rw [hpointer] at hmem
      obtain ⟨slot, hslot, rfl⟩ := Option.map_eq_some_iff.mp hmem
      refine Designates.congr ⟨?_, rfl⟩ hcongr
      rw [pointTo, elementAt, Option.isSome_map]
      exact hleaves.1 slot hslot
    · exact (hpending pointer' hold p hmem).congr hcongr
  | written payload hbuffer hnumbers hsame hinv =>
    refine ⟨?_, fun pointer hp p hmem => ?_, hinv ▸ hinvocations⟩
    · rw [hbuffer]
      exact BufferSlots.wellFormed_write payload hwell
    · have hp' := hpending pointer (hsame ▸ hp) p hmem
      exact hp'.congr (elementAt_write hwell hbuffer hnumbers hp'.content_isSome)
  | popped hpops hpop hnumbers hsame hinv =>
    refine ⟨BufferSlots.wellFormed_pop hwell hpop, fun pointer hp p hmem => ?_,
      hinv ▸ hinvocations⟩
    rw [hsame] at hp
    refine (hpending pointer hp p hmem).congr ?_
    rw [elementAt, elementAt, BufferSlots.content_pop hpop, hnumbers,
      Function.update_of_ne (hleaves.2 hpops pointer hp p hmem)]
  | invoked pointer hpointer hbuffer hnumbers hsub hinv =>
    refine ⟨hbuffer ▸ hwell, fun pointer hp p hmem => ?_, fun x hx => ?_⟩
    · exact (hpending pointer (hsub hp) p hmem).congr (elementAt_congr hbuffer hnumbers _)
    · rw [hinv] at hx
      rcases List.mem_append.mp hx with hold | hnew
      · exact hinvocations x hold
      · obtain rfl := List.mem_singleton.mp hnew
        intro p hp
        obtain rfl : pointer = some p := hp
        exact hpending _ hpointer p rfl

theorem run_intact {lb : LB} (hwell : BufferSlots.WellFormed lb) {processor : P} {tasks : ℕ}
    {as : List (PostProcessingAction T)}
    (hrun : Execution.run (step callbackMode conf) (init queueSizes lb processor tasks) as = some s)
    (hleaves : Execution.StepsMeet (step callbackMode conf) LeavesPointers
      (init queueSizes lb processor tasks) as) : ∀ x ∈ s.invocations, x.Intact := by
  refine (Execution.run_invariant_of_stepsMeet
    (fun s a s' h hleaves hstep => step_intact h hleaves hstep)
    ⟨hwell, ?_, fun x hx => absurd hx List.not_mem_nil⟩ hleaves hrun).invocations
  intro pointer hp
  rcases List.mem_append.mp hp with hwork | hthread
  · cases hwork
  · obtain ⟨x, hx, hpx⟩ := List.mem_flatMap.mp hthread
    rw [(List.mem_replicate.mp hx).2] at hpx
    cases hpx

end Intact

section Buffers

/-- For each of the buffers, from any content on, with any number of tasks. -/
theorem run_neverEvicted {T P : Type} [ReadoutType T] [DecidableEq T] (callbackMode : Bool)
    (conf : ConsumerConf T P) (processor : P) (queueSizes tasks : ℕ)
    (as : List (PostProcessingAction T)) :
    (∀ (q : BinarySearchQueueModel T) xs s, Represents q.toIterableQueueModel xs →
      Execution.run (step callbackMode conf) (init queueSizes q processor tasks) as = some s →
      Execution.StepsMeet (step callbackMode conf) LeavesPointers
        (init queueSizes q processor tasks) as → ∀ x ∈ s.invocations, x.Intact) ∧
    (∀ (q : FixedRateQueueModel T) xs s, Represents q.toIterableQueueModel xs →
      Execution.run (step callbackMode conf) (init queueSizes q processor tasks) as = some s →
      Execution.StepsMeet (step callbackMode conf) LeavesPointers
        (init queueSizes q processor tasks) as → ∀ x ∈ s.invocations, x.Intact) ∧
    ∀ (list : SkipListLatencyBufferModel T) s,
      Execution.run (step callbackMode conf) (init queueSizes list processor tasks) as = some s →
      Execution.StepsMeet (step callbackMode conf) LeavesPointers
        (init queueSizes list processor tasks) as → ∀ x ∈ s.invocations, x.Intact := by
  refine ⟨fun q xs s h hrun hleaves => ?_, fun q xs s h hrun hleaves => ?_,
    fun list s hrun hleaves => ?_⟩
  · have hwell : BufferSlots.WellFormed q := ⟨xs, h⟩
    exact run_intact hwell hrun hleaves
  · have hwell : BufferSlots.WellFormed q := ⟨xs, h⟩
    exact run_intact hwell hrun hleaves
  · have hwell : BufferSlots.WellFormed list := trivial
    exact run_intact hwell hrun hleaves

end Buffers

section Chunks

def promptConf : ConsumerConf (Chunk 1 10) Unit where
  processingDelayTicks := 0
  supportsCutoffTimestamp := false
  preprocessItem := fun p r x => (p, r, x)
  popLimitSize := 1
  toPop := fun occupancy => occupancy / 2

def oneTask : PostProcessingSystem (BinarySearchQueueModel (Chunk 1 10)) (Chunk 1 10) Unit ℕ 4 :=
  init 4 ⟨.fresh (Chunk 1 10) 4⟩ () 1

def queuedActions (ts : UInt64) : List (PostProcessingAction (Chunk 1 10)) :=
  [.preprocess ⟨ts⟩ 0, .write, .postprocess, .queueWrite, .queueWrite]

def invokeActions : List (PostProcessingAction (Chunk 1 10)) :=
  [.thread 0, .thread 0, .thread 0]

/-- `stop`, up to the end of the flush of a number of elements. -/
def stopActions (left : ℕ) : List (PostProcessingAction (Chunk 1 10)) :=
  [.stop, .cleanupThreadEnds, .stopping, .consumerThreadEnds, .stopping, .stopping] ++
    List.replicate left .stopping ++ [.stopping, .stopping]

def drainedActions : List (PostProcessingAction (Chunk 1 10)) :=
  [.start] ++ queuedActions 100 ++ queuedActions 110 ++ invokeActions ++
    [.cleanup .startCleanup, .cleanup (.popOne 1000), .cleanup (.popOne 1000),
      .cleanup .removeErrors] ++ invokeActions ++ stopActions 1

def drained : PostProcessingSystem (BinarySearchQueueModel (Chunk 1 10)) (Chunk 1 10) Unit ℕ 4 :=
  (Execution.run (step false promptConf) oneTask drainedActions).get (by decide +kernel)

theorem run_neverEvicted_drained : ∀ x ∈ drained.invocations, x.Intact :=
  (run_neverEvicted false promptConf () 4 1 drainedActions).1 _ [] _
    (represents_fresh (by decide) (by decide)) (Option.some_get _).symm
    (Execution.stepsMeet_of_checkSteps (fun _ _ => of_decide_eq_true)
      (by decide +kernel : Execution.checkSteps (step false promptConf)
        (fun s a => decide (LeavesPointers s a)) oneTask drainedActions = true))

example : drained.invocations.length = 2 := by decide +kernel

def flushedActions : List (PostProcessingAction (Chunk 1 10)) :=
  [.start] ++ queuedActions 100 ++ stopActions 1 ++ [.thread 0, .thread 0, .thread 0, .thread 0]

theorem not_neverEvicted_of_flushed :
    ¬ ∀ (as : List (PostProcessingAction (Chunk 1 10))) s,
      Execution.run (step false promptConf) oneTask as = some s →
        ∀ x ∈ s.invocations, x.Intact := by
  intro h
  have hintact := h flushedActions _
    (Option.some_get (by decide +kernel : (Execution.run (step false promptConf) oneTask
      flushedActions).isSome = true)).symm
    ⟨some ⟨0, some (1, ⟨100⟩)⟩, none⟩ (by decide +kernel)
  cases (hintact _ rfl).2

end Chunks
end PostProcessingSystem
end DataHandling

import DataHandling.Buffer.RingBuffers
import DataHandling.Buffer.SkipList
import DataHandling.Chunk
import DataHandling.Consumer.ConsumerSystem

/-! Post-processing without a delay. What is handed over is the newest element after the write,
which is the payload exactly when the write was accepted and the payload is the newest. -/

namespace DataHandling
open ReadoutType IterableQueueModel

/-- A latency buffer of which the state tells whether a write is accepted, and whether the
payload that was accepted last is what `back` points to. -/
class WrittenBuffer (LB : Type) (T : outParam Type) [LatencyBuffer LB T] where
  Tracks : LB → List T → Prop
  HasRoom : LB → T → Prop
  HoldsNewest : LB → T → Prop
  write_iff : ∀ {lb accepted} x, Tracks lb accepted →
    ((LatencyBuffer.write lb x).1 = true ↔ HasRoom lb x)
  tracks_accepted : ∀ {lb accepted} x, Tracks lb accepted →
    (LatencyBuffer.write lb x).1 = true → Tracks (LatencyBuffer.write lb x).2 (accepted ++ [x])
  tracks_rejected : ∀ {lb accepted} x, Tracks lb accepted →
    (LatencyBuffer.write lb x).1 = false → Tracks (LatencyBuffer.write lb x).2 accepted
  tracks_pop : ∀ {lb lb' accepted}, Tracks lb accepted →
    LatencyBuffer.pop 1 lb = some lb' → Tracks lb' accepted
  back_iff : ∀ {lb accepted x}, Tracks lb (accepted ++ [x]) →
    (LatencyBuffer.back lb = some x ↔ HoldsNewest lb x)

section Buffers

instance {LB T : Type} [LatencyBuffer LB T] [RingBuffer LB T] : WrittenBuffer LB T where
  Tracks lb accepted := ∃ before, HoldsNewestOf (RingBuffer.queue lb) (before ++ accepted)
  HasRoom lb _ := (RingBuffer.queue lb).isFull = false
  HoldsNewest lb _ := (RingBuffer.queue lb).BackReadable
  write_iff {lb _} x _ := by rw [RingBuffer.write_fst lb x, write_fst_iff x]
  tracks_accepted {lb accepted} x h hwrite := by
    obtain ⟨before, hnewest⟩ := h
    rw [RingBuffer.write_fst lb x] at hwrite
    rw [RingBuffer.write_snd lb x]
    refine ⟨before, ?_⟩
    rw [← List.append_assoc]
    exact hnewest.write_accepted x hwrite
  tracks_rejected {lb _} x h hwrite := by
    rw [RingBuffer.write_fst lb x] at hwrite
    rw [RingBuffer.write_snd lb x]
    exact h.imp fun _ hnewest => hnewest.write_rejected x hwrite
  tracks_pop {lb lb' _} h hpop := by
    have hqueue := RingBuffer.pop_eq lb 1
    rw [hpop, Option.map_some] at hqueue
    exact h.imp fun _ hnewest => hnewest.pop hqueue.symm
  back_iff {lb accepted x} h := by
    obtain ⟨before, hnewest⟩ := h
    rw [← List.append_assoc] at hnewest
    rw [RingBuffer.back_eq lb, hnewest.back_iff]

theorem tracks_of_represents {LB T : Type} [LatencyBuffer LB T] [RingBuffer LB T] {lb : LB}
    {xs : List T} (h : Represents (RingBuffer.queue lb) xs) :
    WrittenBuffer.Tracks lb ([] : List T) :=
  ⟨xs, by simpa only [List.append_nil] using h.holdsNewestOf⟩

instance {LB T : Type} [LatencyBuffer LB T] [RingBuffer LB T] (lb : LB) (x : T) :
    Decidable (WrittenBuffer.HasRoom lb x) :=
  inferInstanceAs (Decidable ((RingBuffer.queue lb).isFull = false))

instance {LB T : Type} [LatencyBuffer LB T] [RingBuffer LB T] (lb : LB) (x : T) :
    Decidable (WrittenBuffer.HoldsNewest lb x) :=
  inferInstanceAs (Decidable (RingBuffer.queue lb).BackReadable)

variable {T : Type} [ReadoutType T]

instance : WrittenBuffer (SkipListLatencyBufferModel T) T where
  Tracks _ _ := True
  HasRoom s x := ∀ y ∈ s.elements, lt y x = true ∨ lt x y = true
  HoldsNewest s x := x ∈ s.elements ∧ ∀ y ∈ s.elements, lt x y = false
  write_iff {s _} _ _ := SortedSet.insert_fst_iff (strictWeakOrder_lt T) s.sorted
  tracks_accepted _ _ _ := trivial
  tracks_rejected _ _ _ := trivial
  tracks_pop _ _ := trivial
  back_iff {s _ _} _ := s.sorted.getLast?_eq_some_iff (strictWeakOrder_lt T)

end Buffers

namespace ConsumerSystem
variable {LB T P : Type}

def pending (s : ConsumerSystem LB T P) : List (Option T) :=
  match s.phase with
  | .written => [s.accepted.getLast?]
  | _ => []

section Pending
variable {s : ConsumerSystem LB T P}

theorem pending_of_preprocessed {payload : T} {callback : Bool}
    (hphase : s.phase = .preprocessed payload callback) : s.pending = [] := by
  rw [pending, hphase]

theorem pending_of_written (hphase : s.phase = .written) : s.pending = [s.accepted.getLast?] := by
  rw [pending, hphase]

end Pending

variable [LatencyBuffer LB T] [WrittenBuffer LB T]

/-- A step that hands over what it should: the write is accepted, and the payload is still the
newest element when it is looked up. -/
def HandsOverPayload (s : ConsumerSystem LB T P) : ConsumerAction T → Prop
  | .write => ∀ payload ∈ s.phase.payload, WrittenBuffer.HasRoom s.latencyBuffer payload
  | .postprocess => ∀ payload ∈ s.accepted.getLast?,
      WrittenBuffer.HoldsNewest s.latencyBuffer payload
  | _ => True

instance [∀ (lb : LB) x, Decidable (WrittenBuffer.HasRoom lb x)]
    [∀ (lb : LB) x, Decidable (WrittenBuffer.HoldsNewest lb x)] (s : ConsumerSystem LB T P) :
    (a : ConsumerAction T) → Decidable (HandsOverPayload s a)
  | .write =>
    inferInstanceAs (Decidable (∀ payload ∈ s.phase.payload,
      WrittenBuffer.HasRoom s.latencyBuffer payload))
  | .postprocess =>
    inferInstanceAs (Decidable (∀ payload ∈ s.accepted.getLast?,
      WrittenBuffer.HoldsNewest s.latencyBuffer payload))
  | .preprocess _ _ _ | .deferredPass _ | .startCleanup | .popOne _ | .removeErrors =>
    isTrue trivial

/-- The accepted payloads have been handed over, each once and in their order. -/
def InOrder (s : ConsumerSystem LB T P) : Prop :=
  s.postprocessed ++ s.pending = s.accepted.map some

structure Consistent (s : ConsumerSystem LB T P) : Prop where
  tracks : WrittenBuffer.Tracks s.latencyBuffer s.accepted
  bound : s.accepted.length ≤ s.postprocessed.length + s.pending.length

section Step
variable {conf : ConsumerConf T P} {s s' : ConsumerSystem LB T P} {a : ConsumerAction T}

theorem consistent_write (h : Consistent s) (hdelay : conf.processingDelayTicks = 0) {payload : T}
    {callback : Bool} (hphase : s.phase = .preprocessed payload callback) :
    Consistent (s.write conf payload callback) ∧
      (InOrder (s.write conf payload callback) ↔
        InOrder s ∧ WrittenBuffer.HasRoom s.latencyBuffer payload) := by
  have hbound := h.bound
  have hwritten : (s.write conf payload callback).phase = .written := if_pos (.inr hdelay)
  rw [pending_of_preprocessed hphase, List.length_nil] at hbound
  rw [InOrder, InOrder, pending_of_preprocessed hphase, pending_of_written hwritten,
    ← WrittenBuffer.write_iff payload h.tracks]
  cases hwrite : (LatencyBuffer.write s.latencyBuffer payload).1 with
  | true =>
    have haccepted : (s.write conf payload callback).accepted = s.accepted ++ [payload] :=
      if_pos hwrite
    refine ⟨⟨?_, ?_⟩, ?_⟩
    · rw [haccepted]
      exact WrittenBuffer.tracks_accepted payload h.tracks hwrite
    · rw [haccepted, pending_of_written hwritten]
      simpa [write] using hbound
    · rw [haccepted]
      simp [write]
  | false =>
    have haccepted : (s.write conf payload callback).accepted = s.accepted :=
      if_neg (by rw [hwrite]; exact Bool.false_ne_true)
    refine ⟨⟨?_, ?_⟩, iff_of_false ?_ (by simp)⟩
    · rw [haccepted]
      exact WrittenBuffer.tracks_rejected payload h.tracks hwrite
    · rw [haccepted, pending_of_written hwritten]
      exact Nat.le_succ_of_le hbound
    · -- one pointer more than there are accepted payloads
      rw [haccepted]
      intro heq
      have hlength := congrArg List.length heq
      simp only [write, List.length_append, List.length_singleton, List.length_map] at hlength
      omega

theorem consistent_postprocess (h : Consistent s) (hphase : s.phase = .written) :
    Consistent s.postprocess ∧ (InOrder s.postprocess ↔ InOrder s ∧
      ∀ payload ∈ s.accepted.getLast?, WrittenBuffer.HoldsNewest s.latencyBuffer payload) := by
  have hbound := h.bound
  have htracks := h.tracks
  have hnone : s.postprocess.pending = [] := rfl
  rw [pending_of_written hphase] at hbound
  refine ⟨⟨h.tracks, ?_⟩, ?_⟩
  · rw [hnone]
    simpa [postprocess, handOver] using hbound
  rw [InOrder, InOrder, pending_of_written hphase, hnone, List.append_nil]
  show s.postprocessed ++ [LatencyBuffer.back s.latencyBuffer] = s.accepted.map some ↔ _
  rcases List.eq_nil_or_concat s.accepted with hnil | ⟨before, payload, hlast⟩
  · simp [hnil]
  · rw [hlast, List.concat_eq_append] at htracks ⊢
    simp only [List.map_append, List.map_singleton, List.getLast?_concat, List.append_singleton_inj,
      Option.mem_some_iff, forall_eq', WrittenBuffer.back_iff htracks, and_true]

variable [ReadoutType T]

theorem consistent_step (h : Consistent s) (hdelay : conf.processingDelayTicks = 0)
    (hstep : step conf s a = some s') :
    Consistent s' ∧ (InOrder s' ↔ InOrder s ∧ HandsOverPayload s a) := by
  cases step_cases hstep with
  | preprocess payload cutoffTimestamp callback hphase =>
    have hnone : s.pending = [] := by rw [pending, hphase]
    have hbound := h.bound
    rw [hnone] at hbound
    refine ⟨⟨h.tracks, hbound⟩, ?_⟩
    rw [InOrder, InOrder, hnone]
    exact (and_iff_left trivial).symm
  | @write payload callback hphase =>
    have hroom : HandsOverPayload s .write ↔ WrittenBuffer.HasRoom s.latencyBuffer payload := by
      simp [HandsOverPayload, hphase, ConsumerPhase.payload]
    rw [hroom]
    exact consistent_write h hdelay hphase
  | postprocess hphase => exact consistent_postprocess h hphase
  | pass fuel hphase hpass =>
    cases hpass with
    | skipped => exact ⟨h, (and_iff_left trivial).symm⟩
    | seeded hrun | executed _ hrun => exact absurd (.inl hdelay) hrun
  | cleanup ha cleanupPhase =>
    refine ⟨⟨h.tracks, h.bound⟩, (and_iff_left ?_).symm⟩
    rcases ha with rfl | ⟨ts, rfl⟩ <;> trivial
  | popOne ts hpop cleanupPhase =>
    exact ⟨⟨WrittenBuffer.tracks_pop h.tracks hpop, h.bound⟩, (and_iff_left trivial).symm⟩
  | removeErrors => exact ⟨⟨h.tracks, h.bound⟩, (and_iff_left trivial).symm⟩

/-- Between two payloads, everything handed over is in order exactly if every step so far has
handed over its payload. -/
theorem postprocessed_eq_iff (hdelay : conf.processingDelayTicks = 0) {lb : LB}
    (hlb : WrittenBuffer.Tracks lb ([] : List T)) {processor : P} {as : List (ConsumerAction T)}
    (hrun : Execution.run (step conf) (init lb processor) as = some s)
    (hphase : s.phase ≠ .written) :
    s.postprocessed = s.accepted.map some ↔
      Execution.StepsMeet (step conf) HandsOverPayload (init lb processor) as := by
  have hinit : Consistent (init lb processor) := ⟨hlb, Nat.zero_le _⟩
  have hrunIff := Execution.run_iff_stepsMeet
    (fun _ _ _ hJ hstep => consistent_step hJ hdelay hstep) hinit hrun
  have hnone : s.pending = [] := by
    rw [pending]
    split <;> first | rfl | exact absurd ‹_› hphase
  have hempty : InOrder (init lb processor : ConsumerSystem LB T P) := rfl
  rw [InOrder, hnone, List.append_nil] at hrunIff
  rw [hrunIff, and_iff_right hempty]

end Step

section Buffers
variable [ReadoutType T]

end Buffers

section Chunks

def immediateConf : ConsumerConf (Chunk 1 10) Unit where
  processingDelayTicks := 0
  supportsCutoffTimestamp := true
  preprocessItem processor registry item := (processor, registry, item)
  popLimitSize := 2
  toPop occupancy := occupancy / 2

def itemActions (ts : UInt64) : List (ConsumerAction (Chunk 1 10)) :=
  [.preprocess ⟨ts⟩ 0 false, .write, .postprocess]

def cleanedActions : List (ConsumerAction (Chunk 1 10)) :=
  itemActions 100 ++ itemActions 110 ++ [.preprocess ⟨120⟩ 0 true, .write, .startCleanup,
    .popOne 1000, .popOne 1000, .postprocess, .removeErrors] ++ itemActions 130

def overflowActions : List (ConsumerAction (Chunk 1 10)) :=
  itemActions 100 ++ itemActions 110 ++ itemActions 120

end Chunks

end ConsumerSystem
end DataHandling

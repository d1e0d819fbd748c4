import DataHandling.Buffer.SkipList
import DataHandling.Consumer.DeferredPass

/-! Delayed post-processing over the skip list, where payloads may arrive up to the delay behind
the newest. A pass hands over what lies between the end of the one before and its own; the first
one begins at the front of the buffer, as it was when a pass was first tried. -/

namespace DataHandling.ConsumerSystem
open ReadoutType Ordered

variable {T P : Type} [ReadoutType T]

/-- A tolerated step: no payload is more than the delay behind the newest, payloads come through
the consumer thread, and nothing is cleaned up. -/
def Tolerated (conf : ConsumerConf T P) (s : ConsumerSystem (SkipListLatencyBufferModel T) T P) :
    ConsumerAction T → Prop
  | .preprocess _ _ callback => callback = false
  | .write => ∀ payload ∈ s.phase.payload, ∀ y ∈ s.latencyBuffer.elements,
      tsNat y ≤ tsNat payload + conf.processingDelayTicks.toNat
  | .startCleanup | .popOne _ | .removeErrors => False
  | .postprocess | .deferredPass _ => True

/-- Until a pass is executed, no payload comes in below the timestamp at which the first one is
to begin. -/
def NotBelowSeed (s : ConsumerSystem (SkipListLatencyBufferModel T) T P) :
    ConsumerAction T → Prop
  | .write => s.firstCycle = false → s.endWinTs = 0 → ∀ payload ∈ s.phase.payload,
      tsNat s.processedElement ≤ tsNat payload
  | _ => True

instance (conf : ConsumerConf T P) (s : ConsumerSystem (SkipListLatencyBufferModel T) T P) :
    (a : ConsumerAction T) → Decidable (Tolerated conf s a)
  | .preprocess _ _ callback => inferInstanceAs (Decidable (callback = false))
  | .write =>
    inferInstanceAs (Decidable (∀ payload ∈ s.phase.payload, ∀ y ∈ s.latencyBuffer.elements,
      tsNat y ≤ tsNat payload + conf.processingDelayTicks.toNat))
  | .startCleanup | .popOne _ | .removeErrors => isFalse id
  | .postprocess | .deferredPass _ => isTrue trivial

instance (s : ConsumerSystem (SkipListLatencyBufferModel T) T P) :
    (a : ConsumerAction T) → Decidable (NotBelowSeed s a)
  | .write =>
    inferInstanceAs (Decidable (s.firstCycle = false → s.endWinTs = 0 →
      ∀ payload ∈ s.phase.payload, tsNat s.processedElement ≤ tsNat payload))
  | .preprocess _ _ _ | .postprocess | .deferredPass _ | .startCleanup | .popOne _
  | .removeErrors => isTrue trivial

/-- The accepted payloads before the end of the last pass have been handed over, each once and
in increasing order, and the next pass comes to its end. -/
structure HandedOnce (conf : ConsumerConf T P)
    (s : ConsumerSystem (SkipListLatencyBufferModel T) T P) : Prop where
  handed : ∃ xs, s.postprocessed = xs.map some ∧ StrictlyIncreasing tsNat xs ∧
    ∀ x, x ∈ xs ↔ x ∈ s.accepted ∧ tsNat x < s.endWinTs.toNat
  returns : s.phase = .idle → ∀ fuel, s.latencyBuffer.elements.length ≤ fuel →
    (step conf s (.deferredPass fuel)).isSome

/-- What has been handed over is what lies below the element at which the next pass begins. -/
structure Delayed (conf : ConsumerConf T P)
    (s : ConsumerSystem (SkipListLatencyBufferModel T) T P) : Prop where
  callback : ∀ payload, s.phase ≠ .preprocessed payload true
  phase : s.phase ≠ .written
  accepted : ∀ x, x ∈ s.accepted ↔ x ∈ s.latencyBuffer.elements
  handed : s.postprocessed =
    (s.latencyBuffer.elements.filter fun x => decide (tsNat x < s.endWinTs.toNat)).map some
  fresh : s.firstCycle = true → s.endWinTs = 0
  seed : s.firstCycle = false →
    ∃ y ∈ s.latencyBuffer.elements, tsNat s.processedElement ≤ tsNat y
  seedLeast : s.firstCycle = false → s.endWinTs = 0 →
    ∀ y ∈ s.latencyBuffer.elements, tsNat s.processedElement ≤ tsNat y
  passEnd : s.endWinTs ≠ 0 → tsNat s.processedElement = s.endWinTs.toNat
  tolerance : s.endWinTs ≠ 0 → ∃ y ∈ s.latencyBuffer.elements,
    s.endWinTs.toNat + conf.processingDelayTicks.toNat ≤ tsNat y

section Step
variable {conf : ConsumerConf T P} {s s' : ConsumerSystem (SkipListLatencyBufferModel T) T P}

theorem Delayed.endWinTs_le (h : Delayed conf s) {payload : T}
    (htolerated : ∀ y ∈ s.latencyBuffer.elements,
      tsNat y ≤ tsNat payload + conf.processingDelayTicks.toNat) :
    s.endWinTs.toNat ≤ tsNat payload := by
  by_cases hzero : s.endWinTs = 0
  · rw [hzero]
    exact Nat.zero_le _
  · obtain ⟨y, hy, hle⟩ := h.tolerance hzero
    have := htolerated y hy
    omega

theorem Delayed.write (h : Delayed conf s) (hdelay : conf.processingDelayTicks ≠ 0) {payload : T}
    {callback : Bool} (hphase : s.phase = .preprocessed payload callback)
    (htolerated : Tolerated conf s .write) (hseed : NotBelowSeed s .write) :
    Delayed conf (s.write conf payload callback) := by
  have hpayload : payload ∈ s.phase.payload := by
    rw [hphase]
    rfl
  have hend := h.endWinTs_le (htolerated payload hpayload)
  have hidle : (s.write conf payload callback).phase = .idle := by
    refine if_neg ?_
    rintro (hcallback | hzero)
    · exact h.callback payload (hcallback ▸ hphase)
    · exact hdelay hzero
  have hmem : ∀ y, y ∈ (s.write conf payload callback).latencyBuffer.elements ↔
      y ∈ s.latencyBuffer.elements ∨ ((s.latencyBuffer.write payload).1 = true ∧ y = payload) :=
    s.latencyBuffer.mem_elements_write payload
  refine ⟨by simp [hidle], by simp [hidle], fun x => ?_, ?_, h.fresh, fun hfirst => ?_,
    fun hfirst hzero y hy => ?_, h.passEnd, fun hne => ?_⟩
  · rw [hmem, ← h.accepted]
    show x ∈ (if (s.latencyBuffer.write payload).1 then s.accepted ++ [payload] else s.accepted) ↔ _
    split_ifs with hwrite <;> simp [hwrite]
  · have hfilter := s.latencyBuffer.filter_elements_write
      (p := fun x => decide (tsNat x < s.endWinTs.toNat)) (decide_eq_false (Nat.not_lt.mpr hend))
    exact h.handed.trans (congrArg (List.map some) hfilter.symm)
  · obtain ⟨y, hy, hle⟩ := h.seed hfirst
    exact ⟨y, (hmem y).mpr (.inl hy), hle⟩
  · rcases (hmem y).mp hy with hold | ⟨_, rfl⟩
    · exact h.seedLeast hfirst hzero y hold
    · exact hseed hfirst hzero y hpayload
  · obtain ⟨y, hy, hle⟩ := h.tolerance hne
    exact ⟨y, (hmem y).mpr (.inl hy), hle⟩

section Pass
variable (horder : TimestampOrder T) (hset : ∀ (x : T) t, getTimestamp (setTimestamp x t) = t)

/-- Where a pass begins: at the end of the last one, or below everything stored. -/
structure PassStart (s : ConsumerSystem (SkipListLatencyBufferModel T) T P) (processed : T) :
    Prop where
  seed : ∃ y ∈ s.latencyBuffer.elements, tsNat processed ≤ tsNat y
  seedLeast : s.endWinTs = 0 → ∀ y ∈ s.latencyBuffer.elements, tsNat processed ≤ tsNat y
  passEnd : s.endWinTs ≠ 0 → tsNat processed = s.endWinTs.toNat

include horder

include hset in
theorem Delayed.passStart (h : Delayed conf s) {processed : T}
    (hseed : s.seededElement = some processed) : PassStart s processed := by
  rw [seededElement] at hseed
  split_ifs at hseed with hfirst
  · obtain ⟨head, hhead, rfl⟩ := Option.map_eq_some_iff.mp hseed
    have hzero := h.fresh hfirst
    have hts : tsNat (setTimestamp s.processedElement (getTimestamp head)) = tsNat head := by
      rw [tsNat, hset, tsNat]
    obtain ⟨rest, hrest⟩ : ∃ rest, s.latencyBuffer.elements = head :: rest :=
      ⟨_, (List.head?_eq_some_iff.mp hhead).choose_spec⟩
    have hsorted := s.latencyBuffer.strictlyIncreasing horder
    rw [hrest] at hsorted
    refine ⟨⟨head, by simp [hrest], hts.le⟩, fun _ y hy => ?_, fun hne => absurd hzero hne⟩
    rw [hts]
    rw [hrest] at hy
    rcases List.mem_cons.mp hy with rfl | hmem
    · exact le_rfl
    · exact ((List.pairwise_cons.mp hsorted).1 y hmem).le
  · cases hseed
    have hfalse := Bool.eq_false_iff.mpr hfirst
    exact ⟨h.seed hfalse, h.seedLeast hfalse, h.passEnd⟩

theorem PassStart.le_tail {processed tail : T} (h : PassStart s processed)
    (hback : LatencyBuffer.back s.latencyBuffer = some tail) : tsNat processed ≤ tsNat tail := by
  obtain ⟨y, hy, hle⟩ := h.seed
  have hsorted := s.latencyBuffer.strictlyIncreasing horder
  exact hle.trans (hsorted.le_getLast hback y hy)

theorem PassStart.handed {processed : T} (h : PassStart s processed) (hdelayed : Delayed conf s) :
    s.postprocessed = (s.latencyBuffer.elements.take
      (lowerBound tsNat s.latencyBuffer.elements (tsNat processed))).map some := by
  rw [hdelayed.handed, ← (s.latencyBuffer.strictlyIncreasing horder).filter_lt]
  by_cases hzero : s.endWinTs = 0
  · congr 1
    apply List.filter_congr
    intro y hy
    have hle := h.seedLeast hzero y hy
    rw [hzero, decide_eq_decide]
    exact iff_of_false (Nat.not_lt_zero _) (Nat.not_lt.mpr hle)
  · rw [h.passEnd hzero]

theorem passPointers_window {processed endElement : T} (hle : tsNat processed ≤ tsNat endElement)
    (list : SkipListLatencyBufferModel T) (fuel : ℕ) :
    passPointers list (list.lowerBound endElement false) fuel (list.lowerBound processed false) =
      if lowerBound tsNat list.elements (tsNat endElement) -
          lowerBound tsNat list.elements (tsNat processed) ≤ fuel then
        some ((slice tsNat list.elements (tsNat processed) (tsNat endElement)).map some)
      else none := by
  have hsorted := list.strictlyIncreasing horder
  rw [list.lowerBound_eq horder, list.lowerBound_eq horder]
  have hstores : BufferView.Stores list list.elements := rfl
  refine passPointers_eq hstores lowerBound_le_length (fun it k hat => ?_) fuel rfl
    (hsorted.lowerBound_mono hle)
  rw [show it = k from hat]

include hset

theorem Delayed.pass (h : Delayed conf s) {fuel : ℕ} (hpass : PassCases conf fuel s s') :
    Delayed conf s' := by
  cases hpass with
  | skipped => exact h
  | seeded _ hback hseed =>
    have hstart := h.passStart horder hset hseed
    exact ⟨h.callback, h.phase, h.accepted, h.handed, by simp, fun _ => hstart.seed,
      fun _ => hstart.seedLeast, hstart.passEnd, h.tolerance⟩
  | @executed pointers tail processed startIter endIter _ hback hseed hdue hlow hhigh hpointers =>
    have hstart := h.passStart horder hset hseed
    have hdelay := (passIsDue_iff (hstart.le_tail horder hback)).mp hdue
    have hend : tsNat (endElement conf tail processed) =
      tsNat tail - conf.processingDelayTicks.toNat := tsNat_endElement hset (by omega)
    have hendWin : (getTimestamp tail - conf.processingDelayTicks).toNat =
      tsNat tail - conf.processingDelayTicks.toNat := toNat_endWinTs (by omega)
    have hmem : tail ∈ s.latencyBuffer.elements := List.mem_of_getLast? hback
    cases hlow
    cases hhigh
    rw [passPointers_window horder (by omega)] at hpointers
    split_ifs at hpointers
    cases hpointers
    have hne : getTimestamp tail - conf.processingDelayTicks ≠ 0 := by
      intro hzero
      rw [hzero] at hendWin
      have : (0 : UInt64).toNat = 0 := rfl
      omega
    refine ⟨h.callback, h.phase, h.accepted, ?_, by simp, fun _ => ⟨tail, hmem, ?_⟩,
      fun _ hzero => absurd hzero hne, fun _ => hend.trans hendWin.symm,
      fun _ => ⟨tail, hmem, ?_⟩⟩
    · -- the passes so far and this one are what lies before its end
      have hsorted := s.latencyBuffer.strictlyIncreasing horder
      show s.postprocessed ++ _ = (s.latencyBuffer.elements.filter fun x =>
        decide (tsNat x < (getTimestamp tail - conf.processingDelayTicks).toNat)).map some
      rw [hendWin, ← hend, hsorted.filter_lt, hstart.handed horder h, ← List.map_append,
        hsorted.take_append_slice (by omega)]
    · show tsNat (endElement conf tail processed) ≤ tsNat tail
      omega
    · show (getTimestamp tail - conf.processingDelayTicks).toNat + _ ≤ tsNat tail
      omega

theorem Delayed.returns (h : Delayed conf s) {fuel : ℕ}
    (hfuel : s.latencyBuffer.elements.length ≤ fuel) : (s.deferredPass conf fuel).isSome := by
  rw [deferredPass]
  split_ifs with hskip
  · rfl
  have hne : s.latencyBuffer.elements ≠ [] := by
    intro hnil
    refine hskip (.inr ?_)
    show s.latencyBuffer.occupancy = 0
    rw [SkipListLatencyBufferModel.occupancy, hnil, List.length_nil]
    decide
  obtain ⟨tail, hback⟩ : ∃ tail, LatencyBuffer.back s.latencyBuffer = some tail :=
    ⟨_, List.getLast?_eq_some_getLast hne⟩
  obtain ⟨processed, hseed⟩ : ∃ processed, s.seededElement = some processed := by
    have hfront : LatencyBuffer.front s.latencyBuffer = some (s.latencyBuffer.elements.head hne) :=
      List.head?_eq_some_head hne
    rw [seededElement, hfront]
    split_ifs <;> exact ⟨_, rfl⟩
  have hstart := h.passStart horder hset hseed
  rw [hback, Option.bind_some, hseed, Option.bind_some]
  split_ifs with hdue
  · have hdelay := (passIsDue_iff (hstart.le_tail horder hback)).mp hdue
    have hend : tsNat (endElement conf tail processed) =
      tsNat tail - conf.processingDelayTicks.toNat := tsNat_endElement hset (by omega)
    have hlen : lowerBound tsNat s.latencyBuffer.elements (tsNat (endElement conf tail processed)) ≤
      s.latencyBuffer.elements.length := lowerBound_le_length
    show (Option.bind (some _) fun startIter => Option.bind (some _) fun endIter => _).isSome
    rw [Option.bind_some, Option.bind_some, Option.isSome_map,
      passPointers_window horder (by omega), if_pos (by omega)]
    rfl
  · rfl

theorem Delayed.step (h : Delayed conf s) (hdelay : conf.processingDelayTicks ≠ 0)
    {a : ConsumerAction T} (htolerated : Tolerated conf s a) (hseed : NotBelowSeed s a)
    (hstep : ConsumerSystem.step conf s a = some s') : Delayed conf s' := by
  cases step_cases hstep with
  | preprocess payload cutoffTimestamp callback hphase =>
    refine ⟨fun x heq => ?_, fun heq => ?_, h.accepted, h.handed, h.fresh, h.seed, h.seedLeast,
      h.passEnd, h.tolerance⟩
    · cases heq
      cases htolerated
    · cases heq
  | write hphase => exact h.write hdelay hphase htolerated hseed
  | postprocess hphase => exact absurd hphase h.phase
  | pass fuel hphase hpass => exact h.pass horder hset hpass
  | cleanup ha cleanupPhase => rcases ha with rfl | ⟨ts, rfl⟩ <;> cases htolerated
  | popOne | removeErrors => cases htolerated

theorem Delayed.handedOnce (h : Delayed conf s) : HandedOnce conf s where
  handed := by
    refine ⟨_, h.handed, (s.latencyBuffer.strictlyIncreasing horder).filter _, fun x => ?_⟩
    rw [List.mem_filter, decide_eq_true_iff, h.accepted]
  returns := by
    intro hphase fuel hfuel
    simp only [ConsumerSystem.step, hphase]
    exact h.returns horder hset hfuel

/-- In every run from an empty skip list, for every order of arrivals that the delay tolerates,
where no payload comes in below the start of the first pass. -/
theorem run_handedOnce (conf : ConsumerConf T P) (hdelay : conf.processingDelayTicks ≠ 0)
    (processor : P) (as : List (ConsumerAction T))
    (s : ConsumerSystem (SkipListLatencyBufferModel T) T P)
    (hmeet : Execution.StepsMeet (ConsumerSystem.step conf)
      (fun s a => Tolerated conf s a ∧ NotBelowSeed s a) (init (.empty T) processor) as)
    (hrun : Execution.run (ConsumerSystem.step conf) (init (.empty T) processor) as = some s) :
    HandedOnce conf s := by
  have hinit : Delayed conf (init (.empty T) processor) :=
    ⟨by simp [init], by simp [init], by simp [init, SkipListLatencyBufferModel.empty],
      by simp [init, SkipListLatencyBufferModel.empty], fun _ => rfl, by simp [init],
      by simp [init], by simp [init], by simp [init]⟩
  have hdelayed := Execution.run_invariant_of_stepsMeet
    (fun s a s' h hcond hstep => Delayed.step horder hset h hdelay hcond.1 hcond.2 hstep)
    hinit hmeet hrun
  exact hdelayed.handedOnce horder hset

end Pass

end Step

section Chunks

def chunkStart : ConsumerSystem (SkipListLatencyBufferModel (Chunk 1 10)) (Chunk 1 10) Unit :=
  init (.empty _) ()

def lateActions : List (ConsumerAction (Chunk 1 10)) :=
  arrivalActions 105 ++ arrivalActions 100 ++ [.deferredPass 9] ++ arrivalActions 120 ++
    [.deferredPass 9] ++ arrivalActions 112 ++ arrivalActions 130 ++ [.deferredPass 9]

theorem run_handedOnce_late : HandedOnce delayedConf
    ((Execution.run (step delayedConf) chunkStart lateActions).get
      (by decide +kernel)) :=
  run_handedOnce (Chunk.timestampOrder 1 10) (fun _ _ => rfl) delayedConf (by decide) ()
    lateActions _
    (Execution.stepsMeet_of_checkSteps (fun _ _ => of_decide_eq_true)
      (by decide +kernel : Execution.checkSteps (step delayedConf)
        (fun s a => decide (Tolerated delayedConf s a ∧ NotBelowSeed s a))
        chunkStart lateActions = true))
    (Option.some_get _).symm

def missedActions : List (ConsumerAction (Chunk 1 10)) :=
  arrivalActions 100 ++ [.deferredPass 9] ++ arrivalActions 95 ++ arrivalActions 120 ++
    [.deferredPass 9]

theorem not_handedOnce_of_missed :
    ¬ ∀ (as : List (ConsumerAction (Chunk 1 10))) s,
      Execution.StepsMeet (step delayedConf) (Tolerated delayedConf)
        chunkStart as →
      Execution.run (step delayedConf) chunkStart as = some s →
        HandedOnce delayedConf s := by
  intro h
  have hmeet : Execution.StepsMeet (step delayedConf) (Tolerated delayedConf)
      chunkStart missedActions :=
    Execution.stepsMeet_of_checkSteps (fun _ _ => of_decide_eq_true)
      (by decide +kernel : Execution.checkSteps (step delayedConf)
        (fun s a => decide (Tolerated delayedConf s a)) chunkStart
        missedActions = true)
  have hrun := Option.some_get (by decide +kernel : (Execution.run (step delayedConf)
    chunkStart missedActions).isSome)
  obtain ⟨xs, hpost, _, hmem⟩ := (h missedActions _ hmeet hrun.symm).handed
  have hlate : (⟨95⟩ : Chunk 1 10) ∈ xs := (hmem ⟨95⟩).mpr (by decide +kernel)
  have hsome := List.mem_map_of_mem (f := some) hlate
  rw [← hpost] at hsome
  exact absurd hsome (by decide +kernel)

end Chunks

end DataHandling.ConsumerSystem

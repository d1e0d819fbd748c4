import DataHandling.Recording.Phases
import DataHandling.Chunk

/-! A recording writes a contiguous block of the accepted elements, as long as every element ends
behind its own timestamp and the recorder is not disturbed where it relies on the ring alone. -/

namespace DataHandling.RecordingSystem
open Cyclic Ordered ReadoutType IterableQueueModel

section Recorder
variable {T : Type} [ReadoutType T] {base : ℕ} {s s' : RecordingSystem T}

theorem beside_goTo (r : Recorder) : Beside s (s.goTo r) :=
  ⟨rfl, rfl, rfl, rfl, List.prefix_rfl, fun _ => rfl, Nat.le_refl _,
    fun h _ => ⟨h.removed_le, h.removed_lt⟩,
    fun _ h => ⟨h.next_eq, h.written_eq, h.removed_eq, h.quiet⟩, id⟩

theorem phaseOk_goTo {r : Recorder} (h : PhaseOk base s r) :
    PhaseOk base (s.goTo r) (s.goTo r).recorder := (beside_goTo r).phaseOk h

theorem upToDate_of_empty (hreached : Reached s) (hwritten : s.written = []) : UpToDate s where
  reached := hreached
  block := ⟨s.frontier, Nat.le_refl _, by
    rw [hwritten, Stretch.stretch_self]⟩
  fresh := fun _ => hwritten

/-- The search ends at the frontier, as long as no cleanup pops beside it. -/
theorem stands_search (horder : TimestampConsistent T)
    (hset : ∀ (x : T) t, getTimestamp (setTimestamp x t) = t) (h : Positions base s)
    (hsorted : StrictlyIncreasing tsNat s.accepted) (hquiet : Quiet s) {it : ℕ}
    (hsearch : BinarySearchQueueModel.search s.queue s.elementToSearch = some it) :
    Stands base s it := by
  rcases Nat.lt_or_eq_of_le h.removed_le with hlt | hempty
  · cases hless : lt s.elementToSearch s.accepted[s.removed] with
    | true =>
      rw [h.search_of_less horder hsorted hlt hless] at hsearch
      exact .inl (Option.some.inj hsearch).symm
    | false =>
      have hfound := h.search_of_not_less horder hsorted hlt hless
      rw [tsNat_elementToSearch hset] at hfound
      obtain ⟨hremoved, hslot⟩ := hfound
      rw [hslot] at hsearch
      refine .inr ⟨⟨hremoved, fun left hleft => ?_⟩, .inl (Option.some.inj hsearch).symm⟩
      rcases hquiet with hidle | hwaiting
      · cases hidle.symm.trans hleft
      · cases hwaiting.symm.trans hleft
  · rw [h.search_of_empty _ hempty] at hsearch
    exact .inl (Option.some.inj hsearch).symm

omit [ReadoutType T] in
theorem Positions.goodOf_popped (h : Positions base s) {p : ℕ} (hp : p + 1 = s.removed) :
    goodOf s.queue (slotOf base s s.removed) (slotOf base s p) = false := by
  rw [← h.readIndex_slotOf, Bool.eq_false_iff]
  intro hgood
  obtain ⟨k, hk, hslot⟩ := h.represents.exists_of_good (h.slotOf_lt p) hgood
  have hlen := h.length_lt
  rw [List.length_drop] at hk
  rw [h.slot_eq (by omega)] at hslot
  have := slotOf_inj (by omega : p ≤ s.removed + k) (by omega) hslot
  omega

theorem Stands.loaded (h : Positions base s) {it : ℕ} (hstands : Stands base s it) :
    StandsLoaded base s it s.queue.readIndex :=
  hstands.imp_right fun ⟨hheld, hat⟩ => ⟨hheld, hat.imp_right fun ⟨hpassed, hremoved⟩ =>
    ⟨hpassed, hremoved, by rw [h.readIndex_slotOf, hremoved]⟩⟩

theorem StandsLoaded.of_good (h : Positions base s) {it currentRead : ℕ}
    (hstands : StandsLoaded base s it currentRead)
    (hgood : goodOf s.queue currentRead it = true) :
    Held s ∧ s.frontier < s.accepted.length ∧ it = slotOf base s s.frontier := by
  rcases hstands with rfl | ⟨hheld, rfl | ⟨⟨p, rfl, hp⟩, hremoved, rfl⟩⟩
  · rw [goodOf_endIndex] at hgood
    cases hgood
  · refine ⟨hheld, Nat.lt_of_le_of_ne lowerBound_le_length fun heq => ?_, rfl⟩
    rw [heq, ← h.writeIndex_eq, goodOf_writeIndex] at hgood
    cases hgood
  · rw [← hremoved, h.goodOf_popped (hp.trans hremoved.symm)] at hgood
    cases hgood

theorem phaseOk_updated (hspaced : Spaced s.accepted) (hblock : BlockUpTo s (s.frontier + 1))
    (hheld : Held s) (hlt : s.frontier < s.accepted.length) (r : Recorder) :
    let x := s.accepted[s.frontier]
    let t := { s with nextTimestampToRecord := getTimestamp x + tickSpan x, recorder := r }
    UpToDate t ∧ Held t ∧ s.frontier + 1 = t.frontier := by
  intro x t
  have hmem : x ∈ s.accepted := List.getElem_mem hlt
  have hrecordable := hspaced.recordable x hmem
  have hnext : t.nextTimestampToRecord.toNat = tsNat x + extent x := hrecordable.fits.end_toNat
  have hfrontier : t.frontier = s.frontier + 1 := by
    rw [frontier, hnext]
    exact hspaced.lowerBound_end hlt
  refine ⟨⟨.inr ⟨x, hmem, hnext.le⟩, ?_, fun hzero => ?_⟩, ⟨?_, fun left hleft => ?_⟩,
    hfrontier.symm⟩
  · rw [hfrontier]
    exact hblock
  · have hpos := hrecordable.extent_pos
    rw [hzero] at hnext
    change 0 = _ at hnext
    omega
  · rw [hfrontier]
    exact Nat.le_succ_of_le hheld.removed_le
  · rw [hfrontier]
    exact Nat.lt_succ_of_lt (hheld.removed_lt left hleft)

section Phases
variable (h : Recording base s) (hstep : s.stepRecorder = some s')
include h hstep

theorem Recording.phaseOk_started (hr : s.recorder = .started) :
    PhaseOk base s' s'.recorder := by
  have hphase := h.phase
  rw [hr] at hphase
  simp only [stepRecorder, hr, Option.some.injEq] at hstep
  subst hstep
  exact upToDate_of_empty (.inl rfl) hphase

theorem Recording.phaseOk_outer (hr : s.recorder = .outer) : PhaseOk base s' s'.recorder := by
  have hphase := h.phase
  rw [hr] at hphase
  simp only [stepRecorder, hr, Option.some.injEq] at hstep
  subst hstep
  refine phaseOk_goTo ?_
  split_ifs with _ hzero
  · exact ⟨hzero, hphase.fresh hzero⟩
  · exact hphase
  · exact hphase

theorem Recording.phaseOk_seeding (hr : s.recorder = .seeding)
    (hquiet : ∀ left, s.cleaner ≠ .popping left) : PhaseOk base s' s'.recorder := by
  have hphase := h.phase
  rw [hr] at hphase
  simp only [stepRecorder, hr, Option.some.injEq] at hstep
  subst hstep
  exact phaseOk_goTo ⟨s.removed, h.positions.removed_le, h.positions.readIndex_slotOf,
    hphase.1, hphase.2, rfl, hquiet⟩

theorem Recording.phaseOk_frontIndexLoaded {currentRead : ℕ}
    (hr : s.recorder = .frontIndexLoaded currentRead) : PhaseOk base s' s'.recorder := by
  have hphase := h.phase
  rw [hr] at hphase
  simp only [stepRecorder, hr] at hstep
  obtain ⟨p, hp, rfl, hseeds⟩ := hphase
  split_ifs at hstep with hempty
  · obtain rfl := Option.some.inj hstep
    exact upToDate_of_empty (.inl rfl) hseeds.written_eq
  · obtain rfl := Option.some.inj hstep
    refine phaseOk_goTo ⟨p, Nat.lt_of_le_of_ne hp ?_, rfl, hseeds⟩
    rintro rfl
    exact hempty h.positions.writeIndex_eq.symm

theorem Recording.phaseOk_frontLoaded {front : ℕ} (hr : s.recorder = .frontLoaded front) :
    PhaseOk base s' s'.recorder := by
  have hphase := h.phase
  rw [hr] at hphase
  simp only [stepRecorder, hr] at hstep
  obtain ⟨p, hp, rfl, hseeds⟩ := hphase
  have hremoved := hseeds.removed_eq
  rw [h.positions.memory_slotOf (by omega) hp] at hstep
  obtain rfl := Option.some.inj hstep
  exact upToDate_of_empty (.inr ⟨_, List.getElem_mem hp, Nat.le_add_right _ _⟩)
    hseeds.written_eq

theorem Recording.phaseOk_entering (hr : s.recorder = .entering) :
    PhaseOk base s' s'.recorder := by
  have hphase := h.phase
  rw [hr] at hphase
  simp only [stepRecorder, hr] at hstep
  split_ifs at hstep with hfree
  obtain rfl := Option.some.inj hstep
  have hquiet : Quiet s := by
    rcases h.mutex hfree.2 with hidle | hnotifying
    · exact .inl hidle
    · have hmutex := hfree.1
      rw [mutexFree, hnotifying] at hmutex
      cases hmutex
  exact ⟨⟨hphase.reached, hphase.block, hphase.fresh⟩, Nat.succ_ne_zero _, hquiet⟩

theorem Recording.phaseOk_searching (horder : TimestampConsistent T)
    (hset : ∀ (x : T) t, getTimestamp (setTimestamp x t) = t) (hr : s.recorder = .searching) :
    PhaseOk base s' s'.recorder := by
  have hphase := h.phase
  rw [hr] at hphase
  simp only [stepRecorder, hr] at hstep
  obtain ⟨it, hsearch, rfl⟩ := Option.map_eq_some_iff.mp hstep
  exact phaseOk_goTo ⟨hphase.1, hphase.2,
    stands_search horder hset h.positions h.spaced.sorted hphase.2.2 hsearch⟩

theorem Recording.phaseOk_searched {chunkIter : ℕ} (hr : s.recorder = .searched chunkIter) :
    PhaseOk base s' s'.recorder := by
  have hphase := h.phase
  rw [hr] at hphase
  simp only [stepRecorder, hr] at hstep
  obtain ⟨hu, -, hstands⟩ := hphase
  split_ifs at hstep
  obtain rfl := Option.some.inj hstep
  refine ⟨⟨hu.reached, hu.block, hu.fresh⟩, ?_⟩
  exact hstands.imp_right fun ⟨hheld, hat⟩ => ⟨⟨hheld.removed_le, hheld.removed_lt⟩, hat⟩

theorem Recording.phaseOk_testing {chunkIter processed : ℕ}
    (hr : s.recorder = .testing chunkIter processed) : PhaseOk base s' s'.recorder := by
  have hphase := h.phase
  rw [hr] at hphase
  simp only [stepRecorder, hr, Option.some.injEq] at hstep
  subst hstep
  refine phaseOk_goTo ?_
  split_ifs
  · exact hphase.1
  · exact ⟨hphase.1, hphase.2.loaded h.positions⟩

theorem Recording.phaseOk_testingLoaded {chunkIter processed currentRead : ℕ}
    (hr : s.recorder = .testingLoaded chunkIter processed currentRead) :
    PhaseOk base s' s'.recorder := by
  have hphase := h.phase
  rw [hr] at hphase
  simp only [stepRecorder, hr, Option.some.injEq] at hstep
  subst hstep
  refine phaseOk_goTo ?_
  split_ifs with hgood
  · exact ⟨hphase.1, hphase.2.of_good h.positions hgood.1⟩
  · exact hphase.1

theorem Recording.phaseOk_comparing {chunkIter processed : ℕ}
    (hr : s.recorder = .comparing chunkIter processed) : PhaseOk base s' s'.recorder := by
  have hphase := h.phase
  rw [hr] at hphase
  simp only [stepRecorder, hr] at hstep
  obtain ⟨hu, hheld, hlt, rfl⟩ := hphase
  have hremoved := hheld.removed_le
  rw [h.positions.memory_slotOf (by omega) hlt] at hstep
  obtain rfl := Option.some.inj hstep
  have hge : getTimestamp s.accepted[s.frontier] ≥ s.nextTimestampToRecord :=
    UInt64.le_iff_toNat_le.mpr (le_key_lowerBound hlt)
  refine phaseOk_goTo ?_
  rw [if_pos hge]
  exact ⟨hu, hheld, hlt, rfl⟩

theorem Recording.phaseOk_writing {chunkIter processed : ℕ}
    (hr : s.recorder = .writing chunkIter processed) : PhaseOk base s' s'.recorder := by
  have hphase := h.phase
  rw [hr] at hphase
  simp only [stepRecorder, hr] at hstep
  obtain ⟨hu, hheld, hlt, rfl⟩ := hphase
  have hremoved := hheld.removed_le
  rw [h.positions.memory_slotOf (by omega) hlt] at hstep
  obtain rfl := Option.some.inj hstep
  exact ⟨⟨hu.reached, hu.block.concat hlt rfl rfl⟩, ⟨hheld.removed_le, hheld.removed_lt⟩,
    hlt, rfl⟩

theorem Recording.phaseOk_updating {chunkIter processed : ℕ}
    (hr : s.recorder = .updating chunkIter processed) : PhaseOk base s' s'.recorder := by
  have hphase := h.phase
  rw [hr] at hphase
  simp only [stepRecorder, hr] at hstep
  obtain ⟨⟨-, hblock⟩, hheld, hlt, rfl⟩ := hphase
  have hremoved := hheld.removed_le
  rw [h.positions.memory_slotOf (by omega) hlt] at hstep
  obtain rfl := Option.some.inj hstep
  obtain ⟨hu, hheld', hfrontier⟩ := phaseOk_updated h.spaced hblock hheld hlt
    (.advancing (slotOf base s s.frontier) processed)
  exact ⟨hu, hheld', s.frontier, rfl, hfrontier⟩

theorem Recording.phaseOk_advancing {chunkIter processed : ℕ}
    (hr : s.recorder = .advancing chunkIter processed) : PhaseOk base s' s'.recorder := by
  have hphase := h.phase
  rw [hr] at hphase
  simp only [stepRecorder, hr, Option.some.injEq] at hstep
  subst hstep
  exact phaseOk_goTo hphase

theorem Recording.phaseOk_advancingLoaded {chunkIter processed currentRead : ℕ}
    (hr : s.recorder = .advancingLoaded chunkIter processed currentRead)
    (hstored : s.queue.good chunkIter = true → goodOf s.queue currentRead chunkIter = true) :
    PhaseOk base s' s'.recorder := by
  have hphase := h.phase
  have hpos := h.positions
  rw [hr] at hphase
  simp only [stepRecorder, hr, Option.some.injEq] at hstep
  obtain ⟨hu, hheld, p, rfl, hat⟩ := hphase
  have hfrontier : s.frontier ≤ s.accepted.length := lowerBound_le_length
  have hremoved := hheld.removed_le
  subst hstep
  refine phaseOk_goTo ⟨hu, .inr ⟨hheld, ?_⟩⟩
  split_ifs with hgood
  · rw [hpos.nextRecord_eq, hat]
    exact .inl rfl
  · refine .inr ⟨⟨p, rfl, hat⟩, ?_⟩
    by_contra hne
    exact hgood (hstored (hpos.goodOf_slotOf (by omega) (by omega)))

theorem Recording.phaseOk_stepped {chunkIter processed : ℕ}
    (hr : s.recorder = .stepped chunkIter processed) : PhaseOk base s' s'.recorder := by
  have hphase := h.phase
  rw [hr] at hphase
  simp only [stepRecorder, hr, Option.some.injEq] at hstep
  subst hstep
  exact phaseOk_goTo ⟨hphase.1, hphase.2.loaded h.positions⟩

theorem Recording.phaseOk_steppedLoaded {chunkIter processed currentRead : ℕ}
    (hr : s.recorder = .steppedLoaded chunkIter processed currentRead) :
    PhaseOk base s' s'.recorder := by
  have hphase := h.phase
  rw [hr] at hphase
  simp only [stepRecorder, hr, Option.some.injEq] at hstep
  subst hstep
  refine phaseOk_goTo ⟨hphase.1, ?_⟩
  split_ifs with hgood
  · obtain ⟨hheld, -, hat⟩ := hphase.2.of_good h.positions hgood
    exact .inr ⟨hheld, .inl hat⟩
  · exact .inl rfl

end Phases

variable (horder : TimestampConsistent T)
  (hset : ∀ (x : T) t, getTimestamp (setTimestamp x t) = t)
include horder hset

theorem Recording.phaseOk_recorder (h : Recording base s)
    (hundisturbed : RecorderUndisturbed s .recorder) (hstep : s.stepRecorder = some s') :
    PhaseOk base s' s'.recorder := by
  rw [RecorderUndisturbed] at hundisturbed
  cases hr : s.recorder with
  | idle => simp only [stepRecorder, hr, reduceCtorEq] at hstep
  | started => exact h.phaseOk_started hstep hr
  | outer => exact h.phaseOk_outer hstep hr
  | seeding =>
    rw [hr] at hundisturbed
    exact h.phaseOk_seeding hstep hr hundisturbed
  | frontIndexLoaded currentRead => exact h.phaseOk_frontIndexLoaded hstep hr
  | frontLoaded front => exact h.phaseOk_frontLoaded hstep hr
  | entering => exact h.phaseOk_entering hstep hr
  | searching => exact h.phaseOk_searching hstep horder hset hr
  | searched chunkIter => exact h.phaseOk_searched hstep hr
  | testing chunkIter processed => exact h.phaseOk_testing hstep hr
  | testingLoaded chunkIter processed currentRead => exact h.phaseOk_testingLoaded hstep hr
  | comparing chunkIter processed => exact h.phaseOk_comparing hstep hr
  | writing chunkIter processed => exact h.phaseOk_writing hstep hr
  | updating chunkIter processed => exact h.phaseOk_updating hstep hr
  | advancing chunkIter processed => exact h.phaseOk_advancing hstep hr
  | advancingLoaded chunkIter processed currentRead =>
    rw [hr] at hundisturbed
    exact h.phaseOk_advancingLoaded hstep hr hundisturbed
  | stepped chunkIter processed => exact h.phaseOk_stepped hstep hr
  | steppedLoaded chunkIter processed currentRead => exact h.phaseOk_steppedLoaded hstep hr

theorem Recording.step {handler : RequestHandler} (h : Recording base s) {a : RecordingAction T}
    (hfollows : AcceptedFollows s a) (hrecordable : AcceptedRecordable s a)
    (hundisturbed : RecorderUndisturbed s a)
    (hstep : RecordingSystem.step handler s a = some s') : Recording base s' := by
  have hpositions := h.positions.step hstep
  cases a with
  | write x =>
    obtain rfl := Option.some.inj hstep
    have hbeside := beside_write h.spaced hfollows hrecordable
    have hcleaner : (s.write x).cleaner = s.cleaner ∧
        (s.write x).cleanupRequested = s.cleanupRequested ∧
        (s.write x).recorder = s.recorder := by
      rw [RecordingSystem.write]
      split_ifs <;> exact ⟨rfl, rfl, rfl⟩
    obtain ⟨hcleaner, hflag, hrecorder⟩ := hcleaner
    refine ⟨hpositions, spaced_write h.spaced hfollows hrecordable, ?_, ?_, ?_⟩
    · rw [hcleaner, hflag]
      exact h.mutex
    · rw [hrecorder]
      exact hbeside.phaseOk h.phase
    · exact hbeside.recordings h.recordings
  | cleanupCheck =>
    have hbeside := beside_cleanupCheck hstep
    obtain ⟨-, rfl | rfl⟩ := cleanupCheck_cases hstep
    · exact h
    · exact ⟨hpositions, h.spaced, (by rintro ⟨⟩), hbeside.phaseOk h.phase, h.recordings⟩
  | cleanup =>
    have hbeside := beside_cleanup h.positions h.spaced.sorted hstep
    obtain ⟨-, haccepted, hrecorder, -⟩ := stepCleaner_frame hstep
    refine ⟨hpositions, haccepted ▸ h.spaced, stepCleaner_flag hstep h.mutex, ?_,
      hbeside.recordings h.recordings⟩
    rw [hrecorder]
    exact hbeside.phaseOk h.phase
  | record =>
    rcases record_cases hstep with rfl | ⟨hidle, rfl⟩
    · exact h
    · have hphase := h.phase
      rw [hidle] at hphase
      exact ⟨hpositions, h.spaced, h.mutex, hphase, h.recordings⟩
  | recorder =>
    obtain ⟨-, -, haccepted, -, hcleaner, hflag, hrecordings⟩ := stepRecorder_frame hstep
    refine ⟨hpositions, haccepted ▸ h.spaced, ?_,
      h.phaseOk_recorder horder hset hundisturbed hstep, ?_⟩
    · rw [hcleaner, hflag]
      exact h.mutex
    · rw [hrecordings, haccepted]
      exact h.recordings
  | timeUp =>
    obtain ⟨houter, rfl⟩ := timeUp_cases hstep
    have hphase := h.phase
    rw [houter] at hphase
    exact ⟨hpositions, h.spaced, h.mutex, rfl,
      List.forall_mem_append.mpr ⟨h.recordings, List.forall_mem_singleton.mpr hphase.isInfix⟩⟩

end Recorder

/-- What has been written is a contiguous block of the accepted elements, in this recording and in
every earlier one. A slot about to be read holds an accepted element, which is what the read finds
there, and a write by the producer leaves it alone. -/
structure RecordsBlocks {T : Type} (s : RecordingSystem T) : Prop where
  written : s.written <:+: s.accepted
  recordings : ∀ block ∈ s.recordings, block <:+: s.accepted
  slotRead : ∀ it, s.recorder.slotRead = some it →
    (∃ x ∈ s.accepted, s.queue.records it = some x ∧ s.memory it = some x) ∧
      ∀ y, (s.write y).queue.records it = s.queue.records it

section Property
variable {T : Type} {base : ℕ} {s : RecordingSystem T}

theorem Positions.safe (h : Positions base s) {p : ℕ} (hremoved : s.removed ≤ p)
    (hp : p < s.accepted.length) :
    (∃ x ∈ s.accepted, s.queue.records (slotOf base s p) = some x ∧
        s.memory (slotOf base s p) = some x) ∧
      ∀ y, (s.write y).queue.records (slotOf base s p) = s.queue.records (slotOf base s p) := by
  refine ⟨⟨_, List.getElem_mem hp, h.records_eq hremoved hp,
    h.memory_slotOf (Nat.le_succ_of_le hremoved) hp⟩, fun y => ?_⟩
  rw [h.write_eq]
  split_ifs with hroom
  · exact Function.update_of_ne
      (h.slotOf_ne_writeIndex (Nat.le_succ_of_le hremoved) hp hroom) _ _
  · rfl

theorem Recording.recordsBlocks [ReadoutType T] (h : Recording base s) : RecordsBlocks s := by
  have hpos := h.positions
  have hphase := h.phase
  refine ⟨hphase.isInfix, h.recordings, fun it hit => ?_⟩
  cases hr : s.recorder with
  | frontLoaded front =>
    rw [hr] at hit hphase
    obtain rfl := Option.some.inj hit
    obtain ⟨p, hp, rfl, hseeds⟩ := hphase
    exact hpos.safe hseeds.removed_eq.le hp
  | comparing chunkIter processed | writing chunkIter processed
  | updating chunkIter processed =>
    rw [hr] at hit hphase
    obtain rfl := Option.some.inj hit
    obtain ⟨-, hheld, hlt, rfl⟩ := hphase
    exact hpos.safe hheld.removed_le hlt
  | _ =>
    rw [hr] at hit
    cases hit

end Property

section Run
variable {T : Type} [ReadoutType T] {q : IterableQueueModel T} {xs : List T}

theorem recording_init (hq : Represents q xs) (hxs : Spaced xs) :
    Recording q.readIndex (init q xs) :=
  ⟨positions_init hq, hxs, fun _ => .inl rfl, rfl, nofun⟩

/-- Whatever the producer, the cleanup and the recorder do in between: what a recording writes is
contiguous and read from live slots, as long as the elements follow each other, each ends behind
its timestamp, and the recorder is not disturbed. -/
theorem run_recordsBlocks (horder : TimestampConsistent T)
    (hset : ∀ (x : T) t, getTimestamp (setTimestamp x t) = t) (hq : Represents q xs)
    (hxs : Spaced xs) (handler : RequestHandler) (as : List (RecordingAction T))
    (s : RecordingSystem T)
    (hfollows : Execution.StepsMeet (step handler) AcceptedFollows (init q xs) as)
    (hrecordable : Execution.StepsMeet (step handler) AcceptedRecordable (init q xs) as)
    (hundisturbed : Execution.StepsMeet (step handler) RecorderUndisturbed (init q xs) as)
    (hrun : Execution.run (step handler) (init q xs) as = some s) : RecordsBlocks s := by
  have h : Recording q.readIndex s := Execution.run_invariant_of_stepsMeet
    (fun _ _ _ h hcond hstep => h.step horder hset hcond.1 hcond.2.1 hcond.2.2 hstep)
    (recording_init hq hxs) (hfollows.and (hrecordable.and hundisturbed)) hrun
  exact h.recordsBlocks

end Run

section Examples
variable {T : Type}

instance [ReadoutType T] (s : RecordingSystem T) : DecidablePred (AcceptedFollows s)
  | .write x => inferInstanceAs
      (Decidable ((s.queue.write x).1 = true → ∀ y ∈ s.accepted.getLast?, Follows y x))
  | .cleanupCheck | .cleanup | .record | .recorder | .timeUp => isTrue trivial

instance [ReadoutType T] (s : RecordingSystem T) : DecidablePred (AcceptedRecordable s)
  | .write x => inferInstanceAs (Decidable ((s.queue.write x).1 = true → Recordable x))
  | .cleanupCheck | .cleanup | .record | .recorder | .timeUp => isTrue trivial

instance [ReadoutType T] (s : RecordingSystem T) : DecidablePred (RecorderUndisturbed s)
  | .recorder =>
    match hr : s.recorder with
    | .seeding =>
      match hc : s.cleaner with
      | .popping left => isFalse fun h => by
          simp only [RecorderUndisturbed, hr] at h
          exact h left hc
      | .idle | .waiting | .starting | .testing _ | .removingErrors | .resetting
      | .notifying => isTrue (by simp [RecorderUndisturbed, hr, hc])
    | .advancingLoaded chunkIter _ currentRead =>
      decidable_of_iff
        (s.queue.good chunkIter = true → goodOf s.queue currentRead chunkIter = true)
        (by simp [RecorderUndisturbed, hr])
    | .idle | .started | .outer | .frontIndexLoaded _ | .frontLoaded _ | .entering
    | .searching | .searched _ | .testing _ _ | .testingLoaded _ _ _ | .comparing _ _
    | .writing _ _ | .updating _ _ | .advancing _ _ | .stepped _ _ | .steppedLoaded _ _ _ =>
      isTrue (by simp [RecorderUndisturbed, hr])
  | .write _ | .cleanupCheck | .cleanup | .record | .timeUp => isTrue trivial

def recordingHandler : RequestHandler :=
  ⟨1 / 4, 1, 1, 4, 0, true, "out.bin", 1024, some ⟨"out.bin", 1024, "None", false⟩⟩

variable {tick : UInt64}

/-- Two elements and a recording, in which a cleanup pops the first element while the recorder
stands on it. -/
def overtakingActions : List (RecordingAction (Chunk 1 tick)) :=
  [.write ⟨100⟩, .write ⟨110⟩, .record] ++ List.replicate 13 .recorder ++ [.cleanupCheck] ++
    List.replicate 4 .cleanup ++ List.replicate 6 .recorder ++ List.replicate 4 .cleanup ++
    List.replicate 8 .recorder

def overtakenState : RecordingSystem (Chunk 1 10) :=
  (Execution.run (step recordingHandler) (init (fresh _ 4) []) overtakingActions).get
    (by decide +kernel)

theorem run_recordsBlocks_overtaken :
    overtakenState.written = [⟨100⟩, ⟨110⟩] ∧ overtakenState.removed = 1 ∧
      RecordsBlocks overtakenState :=
  ⟨by decide +kernel, by decide +kernel,
    run_recordsBlocks (Chunk.timestampOrder 1 10).consistent (fun _ _ => rfl)
      (represents_fresh (by decide) (by decide)) ⟨List.isChain_nil, nofun⟩ recordingHandler
      overtakingActions overtakenState
      (Execution.stepsMeet_of_checkSteps (fun _ _ => of_decide_eq_true)
        (by decide +kernel : Execution.checkSteps (step recordingHandler)
          (fun s a => decide (AcceptedFollows s a)) _ _ = true))
      (Execution.stepsMeet_of_checkSteps (fun _ _ => of_decide_eq_true)
        (by decide +kernel : Execution.checkSteps (step recordingHandler)
          (fun s a => decide (AcceptedRecordable s a)) _ _ = true))
      (Execution.stepsMeet_of_checkSteps (fun _ _ => of_decide_eq_true)
        (by decide +kernel : Execution.checkSteps (step recordingHandler)
          (fun s a => decide (RecorderUndisturbed s a)) _ _ = true))
      (Option.some_get _).symm⟩

/-- The recorder has written the second of three elements when the first one is popped and the
producer comes round to its slot: `++` stays where it is. -/
def turnedActions : List (RecordingAction (Chunk 1 10)) :=
  [.write ⟨100⟩, .write ⟨110⟩, .write ⟨120⟩, .record] ++ List.replicate 23 .recorder ++
    [.cleanupCheck] ++ List.replicate 4 .cleanup ++ [.write ⟨130⟩] ++
    List.replicate 5 .recorder ++ List.replicate 2 .cleanup

/-- Then the second element is popped as well before the recorder looks at it once more. -/
example : ∃ s, Execution.run (step recordingHandler) (init (fresh _ 4) []) turnedActions = some s ∧
    s.recorder = .comparing 1 2 ∧ s.queue.records 1 = none :=
  ⟨_, (Option.some_get (by decide +kernel)).symm, by decide +kernel, by decide +kernel⟩

def instantActions : List (RecordingAction (Chunk 1 0)) :=
  [.write ⟨100⟩, .record] ++ List.replicate 26 .recorder

def instantState : RecordingSystem (Chunk 1 0) :=
  (Execution.run (step recordingHandler) (init (fresh _ 4) []) instantActions).get
    (by decide +kernel)

theorem not_recordsBlocks_of_instant :
    ¬ ∀ (handler : RequestHandler) (as : List (RecordingAction (Chunk 1 0)))
        (s : RecordingSystem (Chunk 1 0)),
        Execution.StepsMeet (step handler) AcceptedFollows (init (fresh _ 4) []) as →
        Execution.run (step handler) (init (fresh _ 4) []) as = some s → RecordsBlocks s := by
  intro h
  have hinfix := (h recordingHandler instantActions instantState
    (Execution.stepsMeet_of_checkSteps (fun _ _ => of_decide_eq_true)
      (by decide +kernel : Execution.checkSteps (step recordingHandler)
        (fun s a => decide (AcceptedFollows s a)) _ _ = true))
    (Option.some_get _).symm).written
  -- the element is written twice
  have htwice : instantState.accepted.length < instantState.written.length := by decide +kernel
  exact Nat.not_le.mpr htwice hinfix.length_le

end Examples
end DataHandling.RecordingSystem

import DataHandling.Chunk
import DataHandling.Recording.Positions
import DataHandling.Request.SkipListCleanup

/-! What a cleanup may remove while a recording is active. The cleanup of a ring tests each element
against `m_next_timestamp_to_record` before it pops it; that of a skip list goes by the age of the
elements alone. -/

namespace DataHandling
open ReadoutType IterableQueueModel

namespace RecordingSystem
variable {T : Type} [ReadoutType T]

def aboutToRemove (s : RecordingSystem T) : Option T :=
  match s.cleaner with
  | .popping _ => s.queue.front.bind s.queue.records
  | _ => none

/-- `m_next_timestamp_to_record` has been set from an element, and the recording has not ended. -/
def Active (s : RecordingSystem T) : Prop :=
  s.nextTimestampToRecord ≠ 0 ∧ s.nextTimestampToRecord ≠ 18446744073709551615

/-- No cleanup removes what an active recording still has to write. -/
def Protects (s : RecordingSystem T) : Prop :=
  ∀ x ∈ s.aboutToRemove, s.Active → getTimestamp x < s.nextTimestampToRecord

/-- Between the test of an element and its pop, the recorder does not set
`m_next_timestamp_to_record` from the front, and does not lower it. -/
def keepsTested (s : RecordingSystem T) : RecordingAction T → Bool
  | .recorder =>
    match s.cleaner, s.recorder with
    | .popping _, .frontLoaded _ => false
    | .popping _, .updating chunkIter _ =>
      decide (s.nextTimestampToRecord ≠ 0) && (s.memory chunkIter).all fun x =>
        decide (s.nextTimestampToRecord ≤ getTimestamp x + tickSpan x)
    | _, _ => true
  | _ => true

section Steps
variable {handler : RequestHandler} {base : ℕ} {s s' : RecordingSystem T}

theorem stepRecorder_next (hstep : s.stepRecorder = some s') :
    s'.nextTimestampToRecord = s.nextTimestampToRecord ∨ s'.nextTimestampToRecord = 0 ∨
      (∃ front, s.recorder = .frontLoaded front) ∨
      ∃ chunkIter processed x, s.recorder = .updating chunkIter processed ∧
        s.memory chunkIter = some x ∧
          s'.nextTimestampToRecord = getTimestamp x + tickSpan x := by
  unfold stepRecorder at hstep
  split at hstep
  case h_1 => cases hstep
  case h_2 =>
    cases hstep
    exact .inr (.inl rfl)
  case h_5 =>
    split_ifs at hstep
    · cases hstep
      exact .inr (.inl rfl)
    · cases hstep
      exact .inl rfl
  case h_6 front hr => exact .inr (.inr (.inl ⟨front, hr⟩))
  case h_7 | h_9 =>
    split_ifs at hstep
    cases hstep
    exact .inl rfl
  case h_14 chunkIter processed hr =>
    obtain ⟨x, hx, rfl⟩ := Option.map_eq_some_iff.mp hstep
    exact .inr (.inr (.inr ⟨chunkIter, processed, x, hr, hx, rfl⟩))
  case h_8 | h_12 | h_13 =>
    obtain ⟨_, _, rfl⟩ := Option.map_eq_some_iff.mp hstep
    exact .inl rfl
  all_goals
    cases hstep
    exact .inl rfl

structure Tested (base : ℕ) (s : RecordingSystem T) : Prop where
  positions : Positions base s
  tested : ∀ left, s.cleaner = .popping left →
    ∃ hlt : s.removed < s.accepted.length,
      s.Active → getTimestamp s.accepted[s.removed] < s.nextTimestampToRecord

theorem step_tested {a : RecordingAction T} (h : Tested base s) (hkeeps : keepsTested s a = true)
    (hstep : RecordingSystem.step handler s a = some s') : Tested base s' := by
  refine ⟨h.positions.step hstep, fun left hpopping => ?_⟩
  cases a with
  | write payload =>
    have hcleaner : s'.cleaner = s.cleaner ∧ s'.removed = s.removed ∧
        s'.nextTimestampToRecord = s.nextTimestampToRecord := by
      obtain rfl := Option.some.inj hstep
      rw [RecordingSystem.write]
      split_ifs <;> exact ⟨rfl, rfl, rfl⟩
    obtain ⟨hcleaner, hremoved, hnext⟩ := hcleaner
    obtain ⟨hlt, htested⟩ := h.tested left (hcleaner ▸ hpopping)
    simp only [Active, hnext, hremoved]
    rcases step_accepted hstep with heq | ⟨x, -, -, heq⟩
    · simp only [heq]
      exact ⟨hlt, htested⟩
    · simp only [heq, List.getElem_append_left hlt]
      exact ⟨by rw [List.length_append]; exact Nat.lt_add_right _ hlt, htested⟩
  | cleanupCheck =>
    obtain ⟨hidle, rfl | rfl⟩ := cleanupCheck_cases hstep
    · exact absurd (hidle.symm.trans hpopping) (by rintro ⟨⟩)
    · exact absurd hpopping (by rintro ⟨⟩)
  | cleanup =>
    obtain ⟨x, hx, hlt⟩ := stepCleaner_popping hstep hpopping
    obtain ⟨-, haccepted, -, hnext, -⟩ := stepCleaner_frame hstep
    rcases stepCleaner_queue hstep with ⟨⟨_, -, htesting⟩, -⟩ | ⟨-, -, hremoved⟩
    · exact absurd (htesting.symm.trans hpopping) (by rintro ⟨⟩)
    · obtain ⟨hfront, rfl⟩ := h.positions.lt_of_front hx
      simp only [haccepted, hremoved, hnext]
      exact ⟨hfront, fun _ => hlt⟩
  | record =>
    rcases record_cases hstep with rfl | ⟨-, rfl⟩
    · exact h.tested left hpopping
    · exact h.tested left hpopping
  | recorder =>
    obtain ⟨-, -, haccepted, hremoved, hcleaner, -⟩ := stepRecorder_frame hstep
    rw [hcleaner] at hpopping
    obtain ⟨hlt, htested⟩ := h.tested left hpopping
    simp only [haccepted, hremoved]
    refine ⟨hlt, fun hactive => ?_⟩
    rcases stepRecorder_next hstep with hnext | hnext | ⟨front, hr⟩ |
      ⟨chunkIter, processed, x, hr, hx, hnext⟩
    · rw [Active, hnext] at hactive
      rw [hnext]
      exact htested hactive
    · exact absurd hnext hactive.1
    · simp only [keepsTested, hpopping, hr, Bool.false_eq_true] at hkeeps
    · simp only [keepsTested, hpopping, hr, hx, Option.all_some, Bool.and_eq_true,
        decide_eq_true_iff] at hkeeps
      rw [hnext]
      refine UInt64.lt_of_lt_of_le (htested ⟨hkeeps.1, fun hmax => ?_⟩) hkeeps.2
      -- behind the maximum there is nothing to move on to
      refine hactive.2 ?_
      rw [hnext]
      rw [hmax] at hkeeps
      exact UInt64.le_antisymm (UInt64.le_iff_toNat_le.mpr (Nat.le_of_lt_succ (UInt64.toNat_lt _)))
        hkeeps.2
  | timeUp =>
    obtain ⟨-, rfl⟩ := timeUp_cases hstep
    exact (h.tested left hpopping).imp fun _ _ hactive => absurd rfl hactive.2

theorem run_protects {q : IterableQueueModel T} {xs : List T} (hq : Represents q xs)
    {as : List (RecordingAction T)}
    (hrun : Execution.run (RecordingSystem.step handler) (init q xs) as = some s)
    (hkeeps : Execution.StepsMeet (RecordingSystem.step handler)
      (fun s a => keepsTested s a = true) (init q xs) as) : Protects s := by
  have h : Tested q.readIndex s := Execution.run_invariant_of_stepsMeet
    (fun s a s' h hkeeps hstep => step_tested h hkeeps hstep)
    ⟨positions_init hq, fun _ hpopping => absurd hpopping nofun⟩ hkeeps hrun
  intro x hx hactive
  unfold aboutToRemove at hx
  split at hx
  · next left hpopping =>
    obtain ⟨hlt, htested⟩ := h.tested left hpopping
    rw [Option.mem_def, h.positions.front_eq hlt, Option.some.injEq] at hx
    rw [← hx]
    exact htested hactive
  · cases hx

end Steps
end RecordingSystem

namespace DefaultSkipListRequestHandler
variable {T : Type} [ReadoutType T]

/-- A cleanup removes nothing that a recording still has to write. -/
def Protects (h : DefaultSkipListRequestHandler T) (nextTimestampToRecord : UInt64) : Prop :=
  ∀ fuel > h.latencyBuffer.elements.length, ∀ h', h.skipListCleanupRequest fuel = some h' →
    ∀ x ∈ h.latencyBuffer.elements, x ∉ h'.latencyBuffer.elements →
      getTimestamp x < nextTimestampToRecord

/-- All elements lie within the window, or those outside it have been recorded. -/
def OldRecorded (h : DefaultSkipListRequestHandler T) (nextTimestampToRecord : UInt64) : Prop :=
  ∀ newest ∈ h.latencyBuffer.back, ∀ oldest ∈ h.latencyBuffer.front,
    tsNat newest - tsNat oldest > maxTsDiff.toNat → ∀ x ∈ h.latencyBuffer.elements,
      maxTsDiff.toNat ≤ tsNat newest - tsNat x → getTimestamp x < nextTimestampToRecord

theorem protects_iff (horder : TimestampConsistent T) (h : DefaultSkipListRequestHandler T)
    (nextTimestampToRecord : UInt64) :
    h.Protects nextTimestampToRecord ↔ h.OldRecorded nextTimestampToRecord := by
  constructor
  · intro hprotects newest hnewest oldest holdest hold x hx hdiff
    obtain ⟨h', hrequest, hcleans⟩ :=
      skipListCleanupRequest_cleansUp horder h _ (Nat.lt_succ_self _)
    refine hprotects _ (Nat.lt_succ_self _) h' hrequest x hx fun hmem => ?_
    rw [hcleans.elements, hnewest, holdest] at hmem
    simp only [if_pos hold, List.mem_filter, decide_eq_true_iff] at hmem
    omega
  · intro hrecorded fuel hfuel h' hrequest x hx hgone
    obtain ⟨h'', hrequest', hcleans⟩ := skipListCleanupRequest_cleansUp horder h fuel hfuel
    obtain rfl := Option.some.inj (hrequest.symm.trans hrequest')
    rw [hcleans.elements] at hgone
    split at hgone
    · next newest oldest hnewest holdest =>
      split_ifs at hgone with hold
      · refine hrecorded newest hnewest oldest holdest hold x hx (Nat.le_of_not_lt fun hlt => ?_)
        exact hgone (List.mem_filter.mpr ⟨hx, decide_eq_true hlt⟩)
      · exact absurd hx hgone
    · exact absurd hx hgone

end DefaultSkipListRequestHandler

/-- Over a ring, no cleanup of a run pops what is still to be recorded as long as the recorder does
not move `m_next_timestamp_to_record` down between a test and its pop; over a skip list, a cleanup
keeps it just if what is old has been recorded. -/
theorem cleanup_protects {T : Type} [ReadoutType T] :
    (∀ (handler : RequestHandler) (q : IterableQueueModel T) xs (as : List (RecordingAction T)) s,
      Represents q xs →
      Execution.run (RecordingSystem.step handler) (.init q xs) as = some s →
      Execution.StepsMeet (RecordingSystem.step handler) (fun s a => s.keepsTested a = true)
        (.init q xs) as → s.Protects) ∧
    (TimestampConsistent T →
      ∀ (h : DefaultSkipListRequestHandler T) (nextTimestampToRecord : UInt64),
      h.Protects nextTimestampToRecord ↔ h.OldRecorded nextTimestampToRecord) := by
  refine ⟨fun handler q xs as s hq hrun hkeeps => ?_, fun horder h next => ?_⟩
  · exact RecordingSystem.run_protects hq hrun hkeeps
  · exact h.protects_iff horder next

section Chunks

def halfHandler : RequestHandler :=
  { RequestHandler.init with
    popSizePct := 1 / 2
    popLimitSize := 1
    bufferedWriter := some ⟨"output.bin", 8388608, "None", false⟩ }

def passedActions : List (RecordingAction (Chunk 1 10)) :=
  [.write ⟨100⟩, .write ⟨110⟩, .record] ++ List.replicate 13 .recorder ++
    [.cleanupCheck, .cleanup, .cleanup, .cleanup]

def passed : RecordingSystem (Chunk 1 10) :=
  (Execution.run (RecordingSystem.step halfHandler) (.init (.fresh _ 4) []) passedActions).get
    (by decide +kernel)

def apartChunks : DefaultSkipListRequestHandler (Chunk 1 10) where
  latencyBuffer := ⟨[⟨100⟩, ⟨700000000⟩], by simp [SortedSet.Sorted, lt]⟩
  popReqs := 0
  popsCount := 0
  numBufferCleanups := 0

theorem oldRecorded_apart : apartChunks.OldRecorded 110 := by
  intro newest hnewest oldest _ _ x hx hdiff
  obtain rfl := Option.some.inj hnewest
  simp only [apartChunks, List.mem_cons, List.not_mem_nil, or_false] at hx
  rcases hx with rfl | rfl
  · decide
  · exact absurd hdiff (by decide)

theorem cleanup_protects_passed : passed.Protects ∧ apartChunks.Protects 110 :=
  ⟨cleanup_protects.1 halfHandler (.fresh _ 4) [] passedActions _
    (represents_fresh (by decide) (by decide)) (Option.some_get _).symm
    (Execution.stepsMeet_of_checkSteps (fun _ _ => id) (by decide +kernel)),
  (cleanup_protects.2 (Chunk.timestampOrder 1 10).consistent apartChunks 110).mpr
    oldRecorded_apart⟩

example : passed.aboutToRemove = some ⟨100⟩ ∧ passed.nextTimestampToRecord = 110 := by
  decide +kernel

/-- A recording starts at the front of a skip list, and the front is removed. -/
theorem not_protects_of_apart :
    ¬ ∀ (h : DefaultSkipListRequestHandler (Chunk 1 10)),
      ∀ front ∈ h.latencyBuffer.front, h.Protects (getTimestamp front) := by
  intro h
  have hlt := h apartChunks ⟨100⟩ rfl 3 (by decide) _
    (Option.some_get (by decide +kernel :
      (apartChunks.skipListCleanupRequest 3).isSome = true)).symm ⟨100⟩ (by decide)
    (by decide +kernel)
  exact absurd hlt (by decide)

end Chunks
end DataHandling

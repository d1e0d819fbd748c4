import DataHandling.Foundation.Stretch
import DataHandling.Recording.Positions
import DataHandling.Recording.Spacing

/-! What holds while the recorder is in each of its phases. The frontier, the first accepted element
at or behind `m_next_timestamp_to_record`, holds off the cleanup and is where the written block
ends; the other threads leave it where it is. -/

namespace DataHandling.RecordingSystem
open Cyclic Ordered ReadoutType IterableQueueModel

section Invariant
variable {T : Type} [ReadoutType T] (base : ℕ) (s : RecordingSystem T)

def frontier : ℕ := Ordered.lowerBound tsNat s.accepted s.nextTimestampToRecord.toNat

def BlockUpTo (k : ℕ) : Prop := ∃ a ≤ k, s.written = Stretch.stretch s.accepted a k

def Reached : Prop :=
  s.nextTimestampToRecord = 0 ∨
    ∃ y ∈ s.accepted, s.nextTimestampToRecord.toNat ≤ tsNat y + extent y

structure UpToDate : Prop where
  reached : Reached s
  block : BlockUpTo s s.frontier
  fresh : s.nextTimestampToRecord = 0 → s.written = []

/-- Nothing at or behind the frontier is removed, or about to be. -/
structure Held : Prop where
  removed_le : s.removed ≤ s.frontier
  removed_lt : ∀ left, s.cleaner = .popping left → s.removed < s.frontier

/-- No cleanup is past its wait for the running requests. -/
def Quiet : Prop := s.cleaner = .idle ∨ s.cleaner = .waiting

/-- The first element is looked up, with the read index loaded at position `p`. -/
structure Seeds (p : ℕ) : Prop where
  next_eq : s.nextTimestampToRecord = 0
  written_eq : s.written = []
  removed_eq : s.removed = p
  quiet : ∀ left, s.cleaner ≠ .popping left

def Passed (it : ℕ) : Prop := ∃ p, it = slotOf base s p ∧ p + 1 = s.frontier

/-- The iterator is at its end, at the frontier, or on the element before it when that has been
popped. -/
def Stands (it : ℕ) : Prop :=
  it = endIndex ∨ Held s ∧
    (it = slotOf base s s.frontier ∨ Passed base s it ∧ s.removed = s.frontier)

def StandsLoaded (it currentRead : ℕ) : Prop :=
  it = endIndex ∨ Held s ∧ (it = slotOf base s s.frontier ∨
    Passed base s it ∧ s.removed = s.frontier ∧ currentRead = slotOf base s s.frontier)

def PhaseOk : Recorder → Prop
  | .idle | .started => s.written = []
  | .outer | .entering => UpToDate s
  | .seeding => s.nextTimestampToRecord = 0 ∧ s.written = []
  | .frontIndexLoaded currentRead =>
    ∃ p ≤ s.accepted.length, currentRead = slotOf base s p ∧ Seeds s p
  | .frontLoaded front => ∃ p < s.accepted.length, front = slotOf base s p ∧ Seeds s p
  | .searching => UpToDate s ∧ s.requestsRunning ≠ 0 ∧ Quiet s
  | .searched chunkIter =>
    UpToDate s ∧ (s.requestsRunning ≠ 0 ∧ Quiet s) ∧ Stands base s chunkIter
  | .testing chunkIter _ | .stepped chunkIter _ => UpToDate s ∧ Stands base s chunkIter
  | .testingLoaded chunkIter _ currentRead | .steppedLoaded chunkIter _ currentRead =>
    UpToDate s ∧ StandsLoaded base s chunkIter currentRead
  | .comparing chunkIter _ | .writing chunkIter _ =>
    UpToDate s ∧ Held s ∧ s.frontier < s.accepted.length ∧ chunkIter = slotOf base s s.frontier
  | .updating chunkIter _ =>
    (Reached s ∧ BlockUpTo s (s.frontier + 1)) ∧ Held s ∧ s.frontier < s.accepted.length ∧
      chunkIter = slotOf base s s.frontier
  | .advancing chunkIter _ | .advancingLoaded chunkIter _ _ =>
    UpToDate s ∧ Held s ∧ Passed base s chunkIter

structure Recording : Prop where
  positions : Positions base s
  spaced : Spaced s.accepted
  mutex : s.cleanupRequested = false → s.cleaner = .idle ∨ s.cleaner = .notifying
  phase : PhaseOk base s s.recorder
  recordings : ∀ block ∈ s.recordings, block <:+: s.accepted

end Invariant

section Beside
variable {T : Type} {base : ℕ} {s s' : RecordingSystem T}

theorem BlockUpTo.concat {k : ℕ} (h : BlockUpTo s k) (hk : k < s.accepted.length)
    (hwritten : s'.written = s.written ++ [s.accepted[k]]) (haccepted : s'.accepted = s.accepted) :
    BlockUpTo s' (k + 1) := by
  obtain ⟨a, ha, hblock⟩ := h
  refine ⟨a, Nat.le_succ_of_le ha, ?_⟩
  rw [hwritten, haccepted, hblock,
    Stretch.stretch_succ ha (List.getElem?_eq_getElem hk)]

variable [ReadoutType T]

structure Beside (s s' : RecordingSystem T) : Prop where
  next_eq : s'.nextTimestampToRecord = s.nextTimestampToRecord
  written_eq : s'.written = s.written
  size_eq : s'.queue.size = s.queue.size
  recordings_eq : s'.recordings = s.recordings
  accepted : s.accepted <+: s'.accepted
  frontier_eq : Reached s → s'.frontier = s.frontier
  removed_le : s.removed ≤ s'.removed
  held : Held s → s'.frontier = s.frontier → Held s'
  seeds : ∀ p, Seeds s p → Seeds s' p
  quiet : s.requestsRunning ≠ 0 ∧ Quiet s → s'.requestsRunning ≠ 0 ∧ Quiet s'

variable (h : Beside s s')
include h

theorem Beside.slotOf_eq (p : ℕ) : slotOf base s' p = slotOf base s p := by
  rw [slotOf, slotOf, h.size_eq]

theorem Beside.reached (hr : Reached s) : Reached s' := by
  rcases hr with hzero | ⟨y, hy, hle⟩
  · exact .inl (h.next_eq.trans hzero)
  · exact .inr ⟨y, h.accepted.subset hy, h.next_eq ▸ hle⟩

theorem Beside.block {k : ℕ} (hk : k ≤ s.accepted.length) (hb : BlockUpTo s k) :
    BlockUpTo s' k := by
  obtain ⟨a, ha, hwritten⟩ := hb
  refine ⟨a, ha, ?_⟩
  rw [h.written_eq, hwritten, Stretch.stretch_of_prefix h.accepted hk]

theorem Beside.upToDate (hu : UpToDate s) : UpToDate s' where
  reached := h.reached hu.reached
  block := by
    rw [h.frontier_eq hu.reached]
    exact h.block lowerBound_le_length hu.block
  fresh := by
    rw [h.next_eq, h.written_eq]
    exact hu.fresh

theorem Beside.passed {it : ℕ} (hfrontier : s'.frontier = s.frontier) (hp : Passed base s it) :
    Passed base s' it := by
  obtain ⟨p, rfl, hat⟩ := hp
  exact ⟨p, (h.slotOf_eq p).symm, hat.trans hfrontier.symm⟩

theorem Beside.removed_eq (hheld : Held s) (hfrontier : s'.frontier = s.frontier)
    (hremoved : s.removed = s.frontier) : s'.removed = s'.frontier := by
  refine Nat.le_antisymm (h.held hheld hfrontier).removed_le ?_
  rw [hfrontier, ← hremoved]
  exact h.removed_le

theorem Beside.stands {it : ℕ} (hu : UpToDate s) (hit : Stands base s it) : Stands base s' it := by
  have hfrontier := h.frontier_eq hu.reached
  rcases hit with hend | ⟨hheld, rfl | ⟨hpassed, hremoved⟩⟩
  · exact .inl hend
  · refine .inr ⟨h.held hheld hfrontier, .inl ?_⟩
    rw [hfrontier, h.slotOf_eq]
  · exact .inr ⟨h.held hheld hfrontier,
      .inr ⟨h.passed hfrontier hpassed, h.removed_eq hheld hfrontier hremoved⟩⟩

theorem Beside.standsLoaded {it currentRead : ℕ} (hu : UpToDate s)
    (hit : StandsLoaded base s it currentRead) : StandsLoaded base s' it currentRead := by
  have hfrontier := h.frontier_eq hu.reached
  rcases hit with hend | ⟨hheld, rfl | ⟨hpassed, hremoved, rfl⟩⟩
  · exact .inl hend
  · refine .inr ⟨h.held hheld hfrontier, .inl ?_⟩
    rw [hfrontier, h.slotOf_eq]
  · refine .inr ⟨h.held hheld hfrontier,
      .inr ⟨h.passed hfrontier hpassed, h.removed_eq hheld hfrontier hremoved, ?_⟩⟩
    rw [hfrontier, h.slotOf_eq]

theorem Beside.recordings (hs : ∀ block ∈ s.recordings, block <:+: s.accepted) :
    ∀ block ∈ s'.recordings, block <:+: s'.accepted := by
  rw [h.recordings_eq]
  exact fun block hblock => (hs block hblock).trans h.accepted.isInfix

theorem Beside.phaseOk {r : Recorder} (hr : PhaseOk base s r) : PhaseOk base s' r := by
  have hlen := h.accepted.length_le
  have hslot : ∀ p, slotOf base s' p = slotOf base s p := h.slotOf_eq
  cases r with
  | idle | started => exact h.written_eq.trans hr
  | outer | entering => exact h.upToDate hr
  | seeding => exact ⟨h.next_eq.trans hr.1, h.written_eq.trans hr.2⟩
  | frontIndexLoaded currentRead =>
    obtain ⟨p, hp, rfl, hseeds⟩ := hr
    exact ⟨p, hp.trans hlen, (hslot p).symm, h.seeds p hseeds⟩
  | frontLoaded front =>
    obtain ⟨p, hp, rfl, hseeds⟩ := hr
    exact ⟨p, hp.trans_le hlen, (hslot p).symm, h.seeds p hseeds⟩
  | searching => exact ⟨h.upToDate hr.1, h.quiet hr.2⟩
  | searched chunkIter => exact ⟨h.upToDate hr.1, h.quiet hr.2.1, h.stands hr.1 hr.2.2⟩
  | testing chunkIter processed | stepped chunkIter processed =>
    exact ⟨h.upToDate hr.1, h.stands hr.1 hr.2⟩
  | testingLoaded chunkIter processed currentRead
  | steppedLoaded chunkIter processed currentRead =>
    exact ⟨h.upToDate hr.1, h.standsLoaded hr.1 hr.2⟩
  | comparing chunkIter processed | writing chunkIter processed =>
    obtain ⟨hu, hheld, hlt, rfl⟩ := hr
    have hfrontier := h.frontier_eq hu.reached
    refine ⟨h.upToDate hu, h.held hheld hfrontier, ?_, ?_⟩
    · rw [hfrontier]
      exact hlt.trans_le hlen
    · rw [hfrontier, hslot]
  | updating chunkIter processed =>
    obtain ⟨⟨hreached, hblock⟩, hheld, hlt, rfl⟩ := hr
    have hfrontier := h.frontier_eq hreached
    refine ⟨⟨h.reached hreached, ?_⟩, h.held hheld hfrontier, ?_, ?_⟩
    · rw [hfrontier]
      exact h.block hlt hblock
    · rw [hfrontier]
      exact hlt.trans_le hlen
    · rw [hfrontier, hslot]
  | advancing chunkIter processed | advancingLoaded chunkIter processed currentRead =>
    obtain ⟨hu, hheld, hpassed⟩ := hr
    have hfrontier := h.frontier_eq hu.reached
    exact ⟨h.upToDate hu, h.held hheld hfrontier, h.passed hfrontier hpassed⟩

end Beside

section Others
variable {T : Type} [ReadoutType T] {handler : RequestHandler} {base : ℕ} {s s' : RecordingSystem T}

/-- An accepted element does not begin before the one accepted last ends. -/
def AcceptedFollows (s : RecordingSystem T) : RecordingAction T → Prop
  | .write x => (s.queue.write x).1 = true → ∀ y ∈ s.accepted.getLast?, Follows y x
  | _ => True

/-- An accepted element covers at least one tick and ends inside the 64-bit timestamps. -/
def AcceptedRecordable (s : RecordingSystem T) : RecordingAction T → Prop
  | .write x => (s.queue.write x).1 = true → Recordable x
  | _ => True

/-- No cleanup is between its test of the front and its pop when the recorder reads the front, and
`++` takes the element that it stands on for a stored one when it still is. -/
def RecorderUndisturbed (s : RecordingSystem T) : RecordingAction T → Prop
  | .recorder =>
    match s.recorder with
    | .seeding => ∀ left, s.cleaner ≠ .popping left
    | .advancingLoaded chunkIter _ currentRead =>
      s.queue.good chunkIter = true → goodOf s.queue currentRead chunkIter = true
    | _ => True
  | _ => True

theorem spaced_write (h : Spaced s.accepted) {x : T} (hfollows : AcceptedFollows s (.write x))
    (hrecordable : AcceptedRecordable s (.write x)) : Spaced (s.write x).accepted := by
  rw [RecordingSystem.write]
  split_ifs with hwrite
  · exact h.concat (hfollows hwrite) (hrecordable hwrite)
  · exact h

theorem beside_write (h : Spaced s.accepted) {x : T} (hfollows : AcceptedFollows s (.write x))
    (hrecordable : AcceptedRecordable s (.write x)) : Beside s (s.write x) := by
  have hsize := size_write s.queue x
  rw [RecordingSystem.write]
  split_ifs with hwrite
  · refine ⟨rfl, rfl, hsize, rfl, List.prefix_append _ _, fun hreached => ?_, Nat.le_refl _,
      ?_, ?_, id⟩
    · refine lowerBound_concat ?_
      rcases hreached with hzero | ⟨y, hy, hle⟩
      · rw [hzero]
        exact Nat.zero_le _
      · exact hle.trans (h.end_le_concat (hfollows hwrite) hy (hrecordable hwrite))
    · intro hheld hfrontier
      refine ⟨?_, ?_⟩
      · rw [hfrontier]
        exact hheld.removed_le
      · rw [hfrontier]
        exact hheld.removed_lt
    · exact fun p hp => ⟨hp.next_eq, hp.written_eq, hp.removed_eq, hp.quiet⟩
  · exact ⟨rfl, rfl, hsize, rfl, List.prefix_rfl, fun _ => rfl, Nat.le_refl _,
      fun hheld _ => ⟨hheld.removed_le, hheld.removed_lt⟩,
      fun p hp => ⟨hp.next_eq, hp.written_eq, hp.removed_eq, hp.quiet⟩, id⟩

theorem beside_cleanupCheck (hstep : s.cleanupCheck handler = some s') : Beside s s' := by
  obtain ⟨hidle, rfl | rfl⟩ := cleanupCheck_cases hstep
  · exact ⟨rfl, rfl, rfl, rfl, List.prefix_rfl, fun _ => rfl, Nat.le_refl _, fun h _ => h,
      fun _ h => h, id⟩
  · exact ⟨rfl, rfl, rfl, rfl, List.prefix_rfl, fun _ => rfl, Nat.le_refl _,
      fun hheld _ => ⟨hheld.removed_le, nofun⟩,
      fun p hp => ⟨hp.next_eq, hp.written_eq, hp.removed_eq, nofun⟩,
      fun h => ⟨h.1, .inr rfl⟩⟩

/-- A cleanup pops only what lies before the frontier. -/
theorem beside_cleanup (h : Positions base s) (hsorted : StrictlyIncreasing tsNat s.accepted)
    (hstep : s.stepCleaner handler = some s') : Beside s s' := by
  obtain ⟨-, haccepted, -, hnext, hrunning, hwritten, hrecordings⟩ := stepCleaner_frame hstep
  have hfrontier : s'.frontier = s.frontier := by rw [frontier, haccepted, hnext, frontier]
  have hpopping : ∀ left, s'.cleaner = .popping left →
      s.removed < s.frontier ∧ s.nextTimestampToRecord ≠ 0 := by
    intro left hleft
    obtain ⟨x, hx, hlt⟩ := stepCleaner_popping hstep hleft
    obtain ⟨hremoved, rfl⟩ := h.lt_of_front hx
    have hlt' : tsNat s.accepted[s.removed] < s.nextTimestampToRecord.toNat :=
      UInt64.lt_iff_toNat_lt.mp hlt
    refine ⟨?_, fun hzero => ?_⟩
    · by_contra hle
      exact absurd (hsorted.le_key (Nat.not_lt.mp hle) hremoved) (Nat.not_le.mpr hlt')
    · rw [hzero] at hlt'
      exact absurd hlt' (Nat.not_lt_zero _)
  refine ⟨hnext, hwritten, ?_, hrecordings, haccepted ▸ List.prefix_rfl,
    fun _ => hfrontier, ?_, ?_, ?_, ?_⟩
  · rcases stepCleaner_queue hstep with ⟨-, hpop, -⟩ | ⟨-, hqueue, -⟩
    · exact size_popFront hpop
    · rw [hqueue]
  · rcases stepCleaner_queue hstep with ⟨-, -, hremoved⟩ | ⟨-, -, hremoved⟩ <;> omega
  · intro hheld _
    rcases stepCleaner_queue hstep with ⟨⟨left, hleft, htesting⟩, -, hremoved⟩ | ⟨-, -, hremoved⟩
    · refine ⟨?_, fun left' hleft' => ?_⟩
      · rw [hremoved, hfrontier]
        exact hheld.removed_lt left hleft
      · rw [htesting] at hleft'
        cases hleft'
    · refine ⟨?_, fun left hleft => ?_⟩
      · rw [hremoved, hfrontier]
        exact hheld.removed_le
      · rw [hremoved, hfrontier]
        exact (hpopping left hleft).1
  · intro p hp
    rcases stepCleaner_queue hstep with ⟨⟨left, hleft, -⟩, -⟩ | ⟨-, -, hremoved⟩
    · exact absurd hleft (hp.quiet left)
    · exact ⟨hnext.trans hp.next_eq, hwritten.trans hp.written_eq, hremoved.trans hp.removed_eq,
        fun left hleft => (hpopping left hleft).2 hp.next_eq⟩
  · rintro ⟨hrun, hidle | hwaiting⟩
    · rw [stepCleaner, hidle] at hstep
      cases hstep
    · simp only [stepCleaner, hwaiting, if_neg hrun] at hstep
      cases hstep

end Others

section Block
variable {T : Type} {base : ℕ} {s : RecordingSystem T}

theorem BlockUpTo.isInfix {k : ℕ} (h : BlockUpTo s k) : s.written <:+: s.accepted := by
  obtain ⟨a, -, hwritten⟩ := h
  rw [hwritten]
  exact Stretch.stretch_isInfix

theorem isInfix_of_empty (h : s.written = []) : s.written <:+: s.accepted := by
  rw [h]
  exact List.nil_infix

theorem PhaseOk.isInfix [ReadoutType T] {r : Recorder} (h : PhaseOk base s r) :
    s.written <:+: s.accepted := by
  cases r with
  | idle | started => exact isInfix_of_empty h
  | seeding => exact isInfix_of_empty h.2
  | frontIndexLoaded currentRead | frontLoaded front =>
    obtain ⟨p, -, -, hseeds⟩ := h
    exact isInfix_of_empty hseeds.written_eq
  | outer | entering => exact h.block.isInfix
  | updating chunkIter processed => exact h.1.2.isInfix
  | _ => exact h.1.block.isInfix

end Block

end DataHandling.RecordingSystem

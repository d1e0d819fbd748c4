import DataHandling.Buffer.QueueContents
import DataHandling.Chunk
import DataHandling.Foundation.Execution
import DataHandling.Request.Configuration
import DataHandling.Request.FrameErrorRegistry
import Mathlib.Algebra.Order.Field.Rat

/-! One call of `DefaultRequestHandlerModel::cleanup` on a ring, in steps between which the
producer writes. -/

namespace DataHandling
open ReadoutType IterableQueueModel

/-- Where the call stands: at its reads of the occupancy, in its loop with the number of elements
left to pop, behind the loop, or at a null pointer. -/
inductive CleanupCallPhase where
  | starting
  | counting
  | testing (left : ℕ)
  | popping (left : ℕ)
  | measuring
  | adding
  | removingErrors
  | finishing
  | returned
  | nullRead
  deriving DecidableEq

/-- The ring, the registry and the counters, all of them atomic signed integers, and the local
counter `popped`. Kept beside them are the elements stored at first or accepted since, those
removed, and the number stored when the number to pop is computed. -/
structure CleanupCall (T : Type) where
  queue : IterableQueueModel T
  registry : FrameErrorRegistry
  nextTimestampToRecord : UInt64
  occupancy : Int32
  popReqs : Int32
  popsCount : Int32
  numBufferCleanups : Int32
  phase : CleanupCallPhase
  popped : ℕ
  accepted : List T
  removed : List T
  counted : ℕ

inductive CleanupAction (T : Type) where
  | write (payload : T)
  | cleanup

namespace CleanupCall
variable {T : Type} [ReadoutType T] (h : RequestHandler)

def init (queue : IterableQueueModel T) (content : List T) (registry : FrameErrorRegistry)
    (nextTimestampToRecord : UInt64) (popsCount : Int32) : CleanupCall T where
  queue := queue
  registry := registry
  nextTimestampToRecord := nextTimestampToRecord
  occupancy := 0
  popReqs := 0
  popsCount := popsCount
  numBufferCleanups := 0
  phase := .starting
  popped := 0
  accepted := content
  removed := []
  counted := 0

def frontElement (s : CleanupCall T) : Option T := s.queue.front.bind s.queue.records

def stepCleanup (s : CleanupCall T) : Option (CleanupCall T) :=
  match s.phase with
  | .starting =>
    if s.queue.occupancy > h.popLimitSize then
      some { s with popReqs := s.popReqs + 1, phase := .counting }
    else some { s with phase := .finishing }
  | .counting => some { s with
      phase := .testing (h.toPop s.queue.occupancy)
      counted := s.queue.liveSlots.length }
  | .testing 0 => some { s with phase := .measuring }
  | .testing (left + 1) =>
    match s.frontElement with
    | none => some { s with phase := .nullRead }
    | some front =>
      if getTimestamp front < s.nextTimestampToRecord then some { s with phase := .popping left }
      else some { s with phase := .measuring }
  | .popping left =>
    (pop 1 s.queue).map fun queue => { s with
      queue := queue
      phase := .testing left
      popped := s.popped + 1
      removed := s.removed ++ s.frontElement.toList }
  | .measuring => some { s with
      occupancy := Int32.ofNat s.queue.occupancy
      phase := .adding }
  | .adding => some { s with
      popsCount := s.popsCount + Int32.ofNat s.popped
      phase := .removingErrors }
  | .removingErrors =>
    match s.frontElement with
    | none => some { s with phase := .nullRead }
    | some front => some { s with
        registry := s.registry.removeErrorsUntil (getTimestamp front)
        phase := .finishing }
  | .finishing => some { s with
      numBufferCleanups := s.numBufferCleanups + 1
      phase := .returned }
  | .returned | .nullRead => none

def step (s : CleanupCall T) : CleanupAction T → Option (CleanupCall T)
  | .write payload => some { s with
      queue := (s.queue.write payload).2
      accepted := if (s.queue.write payload).1 then s.accepted ++ [payload] else s.accepted }
  | .cleanup => s.stepCleanup h

def added : CleanupCallPhase → Bool
  | .removingErrors | .finishing | .returned => true
  | _ => false

/-- What holds between any two steps of a call: no null pointer has been read, the removed
elements are the oldest, all below `m_next_timestamp_to_record`, at most the share to pop, and
counted exactly. -/
structure CleansSafely (popsCount : Int32) (s : CleanupCall T) : Prop where
  front_read : s.phase ≠ .nullRead
  oldest : s.removed <+: s.accepted
  stored : Represents s.queue (s.accepted.drop s.removed.length)
  recorded : ∀ x ∈ s.removed, getTimestamp x < s.nextTimestampToRecord
  bounded : s.removed.length ≤ ⌊h.popSizePct * s.counted⌋₊
  count : s.popsCount =
    if added s.phase then popsCount + Int32.ofNat s.removed.length else popsCount

/-- The number to pop does not exceed its share of what is stored, or an element that is still to
be recorded comes before; and behind the loop the share is not everything, something has been
written, or an element counted is still to be recorded. -/
def PhaseMeets (s : CleanupCall T) : CleanupCallPhase → Prop
  | .counting =>
    h.toPop s.queue.occupancy ≤ ⌊h.popSizePct * s.queue.liveSlots.length⌋₊ ∨
      ∃ x ∈ s.accepted.take (⌊h.popSizePct * s.queue.liveSlots.length⌋₊ + 1),
        s.nextTimestampToRecord ≤ getTimestamp x
  | .removingErrors =>
    h.popSizePct < 1 ∨ s.counted < s.accepted.length ∨
      ∃ x ∈ s.accepted.take s.counted, s.nextTimestampToRecord ≤ getTimestamp x
  | _ => True

def MeetsCleanup (s : CleanupCall T) : CleanupAction T → Prop
  | .write _ => True
  | .cleanup => PhaseMeets h s s.phase

instance (s : CleanupCall T) : ∀ phase, Decidable (PhaseMeets h s phase)
  | .counting => inferInstanceAs (Decidable (_ ∨ _))
  | .removingErrors => inferInstanceAs (Decidable (_ ∨ _ ∨ _))
  | .starting | .testing _ | .popping _ | .measuring | .adding | .finishing | .returned
  | .nullRead => .isTrue trivial

instance (s : CleanupCall T) : ∀ a, Decidable (MeetsCleanup h s a)
  | .write _ => .isTrue trivial
  | .cleanup => inferInstanceAs (Decidable (PhaseMeets h s s.phase))

section Share
variable {p : ℚ} {n : ℕ}

theorem floor_share_le (h1 : p ≤ 1) (n : ℕ) : ⌊p * n⌋₊ ≤ n := by
  have hn0 : (0 : ℚ) ≤ n := Nat.cast_nonneg n
  apply Nat.floor_le_of_le
  calc p * n ≤ 1 * n := mul_le_mul_of_nonneg_right h1 hn0
    _ = n := one_mul _

theorem floor_share_lt (h0 : 0 ≤ p) (h1 : p < 1) (hn : 0 < n) : ⌊p * n⌋₊ < n := by
  have hpos : (0 : ℚ) < n := Nat.cast_pos.mpr hn
  rw [Nat.floor_lt (mul_nonneg h0 hpos.le)]
  calc p * n < 1 * n := mul_lt_mul_of_pos_right h1 hpos
    _ = n := one_mul _

end Share

/-- The loop stays within the share: no more pops are left than it allows, or an element that is
still to be recorded comes before. -/
def Within (s : CleanupCall T) (left : ℕ) : Prop :=
  s.removed.length + left ≤ ⌊h.popSizePct * s.counted⌋₊ ∨
    ∃ x ∈ s.accepted.take (⌊h.popSizePct * s.counted⌋₊ + 1),
      s.nextTimestampToRecord ≤ getTimestamp x

def PhaseOk (s : CleanupCall T) : CleanupCallPhase → Prop
  | .starting => s.removed = []
  | .counting => s.removed = [] ∧ s.accepted ≠ []
  | .testing left => Within h s left ∧ 0 < s.counted ∧ s.counted ≤ s.accepted.length
  | .popping left => Within h s (left + 1) ∧ 0 < s.counted ∧ s.counted ≤ s.accepted.length ∧
      ∃ x, s.frontElement = some x ∧ getTimestamp x < s.nextTimestampToRecord
  | .measuring | .adding | .removingErrors => 0 < s.counted ∧ s.counted ≤ s.accepted.length
  | .finishing | .returned => True
  | .nullRead => False

structure Cleans (popsCount : Int32) (s : CleanupCall T) : Prop where
  safe : CleansSafely h popsCount s
  popped_eq : s.popped = s.removed.length
  phase : PhaseOk h s s.phase

section Steps
variable {h} {s s' : CleanupCall T} {popsCount : Int32}

theorem CleansSafely.frontElement_eq (hs : CleansSafely h popsCount s) :
    s.frontElement = (s.accepted.drop s.removed.length).head? := hs.stored.front_records

theorem CleansSafely.exists_front (hs : CleansSafely h popsCount s)
    (hlt : s.removed.length < s.accepted.length) : ∃ x, s.frontElement = some x := by
  rw [hs.frontElement_eq, List.head?_drop, List.getElem?_eq_getElem hlt]
  exact ⟨_, rfl⟩

theorem CleansSafely.prefix_front (hs : CleansSafely h popsCount s) {x : T}
    (hx : s.frontElement = some x) : s.removed ++ [x] <+: s.accepted := by
  obtain ⟨rest, hrest⟩ := hs.oldest
  rw [hs.frontElement_eq, ← hrest, List.drop_left] at hx
  obtain ⟨ys, rfl⟩ := List.head?_eq_some_iff.mp hx
  exact ⟨ys, by rw [List.append_assoc, List.singleton_append, hrest]⟩

omit [ReadoutType T] in
theorem length_lt_of_mem_take {xs ys : List T} {x : T} {m : ℕ} (hpre : xs <+: ys)
    (hx : x ∈ ys.take m) (hnot : x ∉ xs) : xs.length < m ∧ xs.length < ys.length := by
  have hxs := List.prefix_iff_eq_take.mp hpre
  constructor
  · by_contra hle
    apply hnot
    rw [hxs]
    exact List.take_subset_take_left _ (Nat.not_lt.mp hle) hx
  · by_contra hle
    apply hnot
    rw [hxs, List.take_of_length_le (Nat.not_lt.mp hle)]
    exact List.mem_of_mem_take hx

theorem lt_of_unrecorded {next : UInt64} {xs ys : List T} {m : ℕ} (hpre : xs <+: ys)
    (hrecorded : ∀ x ∈ xs, getTimestamp x < next)
    (hx : ∃ x ∈ ys.take m, next ≤ getTimestamp x) : xs.length < m ∧ xs.length < ys.length := by
  obtain ⟨x, hmem, hle⟩ := hx
  exact length_lt_of_mem_take hpre hmem fun hin =>
    absurd (hrecorded x hin) (UInt64.not_lt.mpr hle)

theorem Cleans.extend (hc : Cleans h popsCount s) {queue : IterableQueueModel T} {more : List T}
    (hstored : Represents queue ((s.accepted ++ more).drop s.removed.length)) :
    Cleans h popsCount { s with queue := queue, accepted := s.accepted ++ more } := by
  have hsafe := hc.safe
  have hphase := hc.phase
  have hlen : s.accepted.length ≤ (s.accepted ++ more).length := by
    rw [List.length_append]
    exact Nat.le_add_right _ _
  have hwithin : ∀ left, Within h s left →
      Within h { s with queue := queue, accepted := s.accepted ++ more } left := by
    rintro left (hle | ⟨x, hx, hunrecorded⟩)
    · exact .inl hle
    · refine .inr ⟨x, ?_, hunrecorded⟩
      rw [List.take_append]
      exact List.mem_append_left _ hx
  have hfront : ∀ x, s.frontElement = some x →
      frontElement { s with queue := queue, accepted := s.accepted ++ more } = some x := by
    intro x hx
    obtain ⟨rest, hrest⟩ := hsafe.prefix_front hx
    rw [← hrest, List.append_assoc, List.append_assoc, List.drop_left] at hstored
    exact hstored.front_records
  refine ⟨⟨hsafe.front_read, hsafe.oldest.trans (List.prefix_append _ _), hstored,
    hsafe.recorded, hsafe.bounded, hsafe.count⟩, hc.popped_eq, ?_⟩
  change PhaseOk h _ s.phase
  cases hp : s.phase with
  | starting =>
    rw [hp] at hphase
    exact hphase
  | counting =>
    rw [hp] at hphase
    exact ⟨hphase.1, List.append_ne_nil_of_left_ne_nil hphase.2 _⟩
  | testing left =>
    rw [hp] at hphase
    exact ⟨hwithin _ hphase.1, hphase.2.1, Nat.le_trans hphase.2.2 hlen⟩
  | popping left =>
    rw [hp] at hphase
    obtain ⟨hw, hpos, hle, x, hx, hbelow⟩ := hphase
    exact ⟨hwithin _ hw, hpos, Nat.le_trans hle hlen, x, hfront x hx, hbelow⟩
  | measuring | adding | removingErrors =>
    rw [hp] at hphase
    exact ⟨hphase.1, Nat.le_trans hphase.2 hlen⟩
  | finishing | returned => trivial
  | nullRead => exact hsafe.front_read hp

theorem Cleans.write (hc : Cleans h popsCount s) {payload : T}
    (hs : step h s (.write payload) = some s') : Cleans h popsCount s' := by
  obtain rfl := Option.some.inj hs
  have hle := hc.safe.oldest.length_le
  cases hw : (s.queue.write payload).1 with
  | false =>
    have hstored := hc.safe.stored.write_rejected hw
    rw [← List.append_nil s.accepted] at hstored
    simpa only [List.append_nil, Bool.false_eq_true, if_false] using hc.extend hstored
  | true =>
    have hstored := hc.safe.stored.write_accepted hw
    rw [← List.drop_append_of_le_length hle] at hstored
    exact hc.extend hstored

theorem CleansSafely.keep (hsafe : CleansSafely h popsCount s) (hqueue : s'.queue = s.queue)
    (haccepted : s'.accepted = s.accepted) (hremoved : s'.removed = s.removed)
    (hcounted : s'.counted = s.counted) (hnext : s'.nextTimestampToRecord = s.nextTimestampToRecord)
    (hpops : s'.popsCount = s.popsCount) (hadded : added s'.phase = added s.phase)
    (hphase : s'.phase ≠ .nullRead) : CleansSafely h popsCount s' where
  front_read := hphase
  oldest := by rw [haccepted, hremoved]; exact hsafe.oldest
  stored := by rw [hqueue, haccepted, hremoved]; exact hsafe.stored
  recorded := by rw [hremoved, hnext]; exact hsafe.recorded
  bounded := by rw [hremoved, hcounted]; exact hsafe.bounded
  count := by rw [hpops, hadded, hremoved]; exact hsafe.count

theorem Cleans.exists_front (hc : Cleans h popsCount s) (h1 : h.popSizePct ≤ 1) {left : ℕ}
    (hwithin : Within h s (left + 1)) (hcounted : s.counted ≤ s.accepted.length) :
    ∃ x, s.frontElement = some x := by
  apply hc.safe.exists_front
  rcases hwithin with hle | hunrecorded
  · have hshare := floor_share_le h1 s.counted
    omega
  · exact (lt_of_unrecorded hc.safe.oldest hc.safe.recorded hunrecorded).2

theorem Cleans.exists_last (hc : Cleans h popsCount s) (h0 : 0 ≤ h.popSizePct)
    (h1 : h.popSizePct ≤ 1) (hp : s.phase = .removingErrors)
    (hmeets : MeetsCleanup h s .cleanup) : ∃ x, s.frontElement = some x := by
  have hphase := hc.phase
  rw [hp] at hphase
  obtain ⟨hpos, hle⟩ := hphase
  have hbounded := hc.safe.bounded
  simp only [MeetsCleanup, hp, PhaseMeets] at hmeets
  apply hc.safe.exists_front
  rcases hmeets with hpct | hwritten | hunrecorded
  · have hshare := floor_share_lt h0 hpct hpos
    omega
  · have hshare := floor_share_le h1 s.counted
    omega
  · exact (lt_of_unrecorded hc.safe.oldest hc.safe.recorded hunrecorded).2

theorem Cleans.pop (hc : Cleans h popsCount s) {left : ℕ} (hp : s.phase = .popping left)
    (hs : s.stepCleanup h = some s') : Cleans h popsCount s' := by
  have hsafe := hc.safe
  have hphase := hc.phase
  rw [hp] at hphase
  obtain ⟨hwithin, hpos, hle, x, hx, hbelow⟩ := hphase
  simp only [stepCleanup, hp] at hs
  obtain ⟨queue, hqueue, rfl⟩ := Option.map_eq_some_iff.mp hs
  have hpre := hsafe.prefix_front hx
  have hrecorded : ∀ y ∈ s.removed ++ [x], getTimestamp y < s.nextTimestampToRecord := by
    intro y hy
    rcases List.mem_append.mp hy with hin | hone
    · exact hsafe.recorded y hin
    · rwa [List.mem_singleton.mp hone]
  have hlen : (s.removed ++ [x]).length = s.removed.length + 1 := List.length_append
  have hbounded : s.removed.length + 1 ≤ ⌊h.popSizePct * s.counted⌋₊ := by
    rcases hwithin with hshare | hunrecorded
    · omega
    · have hlt := (lt_of_unrecorded hpre hrecorded hunrecorded).1
      omega
  have hstored : Represents queue (s.accepted.drop (s.removed ++ [x]).length) := by
    obtain ⟨y, ys, hrest, hrep⟩ := hsafe.stored.pop_one hqueue
    rw [hlen, ← List.drop_drop, hrest]
    exact hrep
  rw [hx, Option.toList_some]
  refine ⟨⟨nofun, hpre, hstored, hrecorded, hlen ▸ hbounded, ?_⟩, ?_, ?_⟩
  · have hcount := hsafe.count
    rw [hp] at hcount
    exact hcount
  · rw [hlen, ← hc.popped_eq]
  · refine ⟨hwithin.imp (fun hshare => ?_) id, hpos, hle⟩
    change (s.removed ++ [x]).length + left ≤ ⌊h.popSizePct * s.counted⌋₊
    omega

theorem Cleans.enter (hc : Cleans h popsCount s) (hp : s.phase = .starting)
    (hs : s.stepCleanup h = some s') : Cleans h popsCount s' := by
  have hsafe := hc.safe
  have hremoved : s.removed = [] := by
    have hphase := hc.phase
    rwa [hp] at hphase
  simp only [stepCleanup, hp] at hs
  split_ifs at hs with hover
  · obtain rfl := Option.some.inj hs
    refine ⟨hsafe.keep rfl rfl rfl rfl rfl rfl (by rw [hp]; rfl) nofun, hc.popped_eq, hremoved, ?_⟩
    intro hnil
    have hrest : s.accepted.drop s.removed.length = [] := by
      rw [show s.accepted = [] from hnil, List.drop_nil]
    have hempty := hsafe.stored.occupancy_eq_zero_iff.mpr hrest
    omega
  · obtain rfl := Option.some.inj hs
    refine ⟨⟨nofun, hsafe.oldest, hsafe.stored, hsafe.recorded, hsafe.bounded, ?_⟩,
      hc.popped_eq, trivial⟩
    have hcount := hsafe.count
    rw [hp] at hcount
    simp [added, hcount, hremoved]

theorem Cleans.countLive (hc : Cleans h popsCount s) (hp : s.phase = .counting)
    (hmeets : MeetsCleanup h s .cleanup) (hs : s.stepCleanup h = some s') :
    Cleans h popsCount s' := by
  have hsafe := hc.safe
  have hphase := hc.phase
  rw [hp] at hphase
  obtain ⟨hremoved, hne⟩ := hphase
  simp only [stepCleanup, hp] at hs
  simp only [MeetsCleanup, hp, PhaseMeets] at hmeets
  obtain rfl := Option.some.inj hs
  have hlen : s.queue.liveSlots.length = s.accepted.length := by
    rw [hsafe.stored.liveSlots_length, hremoved]
    rfl
  refine ⟨⟨nofun, hsafe.oldest, hsafe.stored, hsafe.recorded, ?_, ?_⟩, hc.popped_eq, ?_, ?_, ?_⟩
  · rw [hremoved]
    exact Nat.zero_le _
  · have hcount := hsafe.count
    rw [hp] at hcount
    exact hcount
  · refine hmeets.imp (fun hshare => ?_) id
    rwa [hremoved, List.length_nil, Nat.zero_add]
  · change 0 < s.queue.liveSlots.length
    rw [hlen]
    exact List.length_pos_iff.mpr hne
  · exact Nat.le_of_eq hlen

theorem Cleans.test (hc : Cleans h popsCount s) (h1 : h.popSizePct ≤ 1) {left : ℕ}
    (hp : s.phase = .testing left) (hs : s.stepCleanup h = some s') : Cleans h popsCount s' := by
  have hsafe := hc.safe
  have hphase := hc.phase
  rw [hp] at hphase
  obtain ⟨hwithin, hpos, hle⟩ := hphase
  cases left with
  | zero =>
    simp only [stepCleanup, hp] at hs
    obtain rfl := Option.some.inj hs
    exact ⟨hsafe.keep rfl rfl rfl rfl rfl rfl (by rw [hp]; rfl) nofun, hc.popped_eq, hpos, hle⟩
  | succ left =>
    obtain ⟨x, hx⟩ := hc.exists_front h1 hwithin hle
    simp only [stepCleanup, hp, hx] at hs
    split_ifs at hs with hbelow
    · obtain rfl := Option.some.inj hs
      exact ⟨hsafe.keep rfl rfl rfl rfl rfl rfl (by rw [hp]; rfl) nofun, hc.popped_eq, hwithin,
        hpos, hle, x, hx, hbelow⟩
    · obtain rfl := Option.some.inj hs
      exact ⟨hsafe.keep rfl rfl rfl rfl rfl rfl (by rw [hp]; rfl) nofun, hc.popped_eq, hpos, hle⟩

theorem Cleans.addPops (hc : Cleans h popsCount s) (hp : s.phase = .adding)
    (hs : s.stepCleanup h = some s') : Cleans h popsCount s' := by
  have hsafe := hc.safe
  have hphase := hc.phase
  rw [hp] at hphase
  simp only [stepCleanup, hp] at hs
  obtain rfl := Option.some.inj hs
  refine ⟨⟨nofun, hsafe.oldest, hsafe.stored, hsafe.recorded, hsafe.bounded, ?_⟩, hc.popped_eq,
    hphase⟩
  have hcount := hsafe.count
  rw [hp] at hcount
  change s.popsCount + Int32.ofNat s.popped = _
  rw [hcount, hc.popped_eq]
  rfl

theorem Cleans.cleanup (hc : Cleans h popsCount s) (h0 : 0 ≤ h.popSizePct)
    (h1 : h.popSizePct ≤ 1) (hmeets : MeetsCleanup h s .cleanup)
    (hs : s.stepCleanup h = some s') : Cleans h popsCount s' := by
  have hsafe := hc.safe
  have hphase := hc.phase
  cases hp : s.phase with
  | starting => exact hc.enter hp hs
  | counting => exact hc.countLive hp hmeets hs
  | testing left => exact hc.test h1 hp hs
  | popping left => exact hc.pop hp hs
  | measuring =>
    rw [hp] at hphase
    simp only [stepCleanup, hp] at hs
    obtain rfl := Option.some.inj hs
    exact ⟨hsafe.keep rfl rfl rfl rfl rfl rfl (by rw [hp]; rfl) nofun, hc.popped_eq, hphase.1,
      hphase.2⟩
  | adding => exact hc.addPops hp hs
  | removingErrors =>
    obtain ⟨x, hx⟩ := hc.exists_last h0 h1 hp hmeets
    simp only [stepCleanup, hp, hx] at hs
    obtain rfl := Option.some.inj hs
    exact ⟨hsafe.keep rfl rfl rfl rfl rfl rfl (by rw [hp]; rfl) (by rintro ⟨⟩),
      hc.popped_eq, trivial⟩
  | finishing =>
    simp only [stepCleanup, hp] at hs
    obtain rfl := Option.some.inj hs
    exact ⟨hsafe.keep rfl rfl rfl rfl rfl rfl (by rw [hp]; rfl) (by rintro ⟨⟩),
      hc.popped_eq, trivial⟩
  | returned => simp only [stepCleanup, hp, reduceCtorEq] at hs
  | nullRead => simp only [stepCleanup, hp, reduceCtorEq] at hs

end Steps

theorem cleans_init {queue : IterableQueueModel T} {content : List T}
    (hqueue : Represents queue content) (registry : FrameErrorRegistry) (next : UInt64)
    (popsCount : Int32) : Cleans h popsCount (init queue content registry next popsCount) :=
  ⟨⟨nofun, List.nil_prefix, hqueue, nofun, Nat.zero_le _, rfl⟩, rfl, rfl⟩

/-- For every accepted configuration and every ring, no matter when the producer writes: as long
as the steps meet the condition the call is safe. -/
theorem run_cleansSafely {canOpen : DataRecorder → Bool} {c : RequestHandlerConf}
    {h₀ h : RequestHandler} (hconf : h₀.conf canOpen c = some (false, h))
    {queue : IterableQueueModel T} {content : List T} (hqueue : Represents queue content)
    (registry : FrameErrorRegistry) (next : UInt64) (popsCount : Int32)
    (actions : List (CleanupAction T)) (s : CleanupCall T)
    (hmeets : Execution.StepsMeet (step h) (MeetsCleanup h)
      (init queue content registry next popsCount) actions)
    (hrun : Execution.run (step h) (init queue content registry next popsCount) actions = some s) :
    CleansSafely h popsCount s := by
  obtain ⟨-, ⟨h0, h1⟩, hpct, -⟩ := RequestHandler.conf_accepted hconf
  rw [← hpct] at h0 h1
  have hcleans : Cleans h popsCount s :=
    Execution.run_invariant_of_stepsMeet (I := Cleans h popsCount)
      (fun s a s' hc hmeet hstep => by
        cases a with
        | write payload => exact hc.write hstep
        | cleanup => exact hc.cleanup h0 h1 hmeet hstep)
      (cleans_init h hqueue registry next popsCount) hmeets hrun
  exact hcleans.safe

/-- Three of at most three elements are too many, and a cleanup sets out to pop the given share. -/
def shareConf (popSizePct : ℚ) : RequestHandlerConf := ⟨1 / 2, popSizePct, 4, none⟩

def shareHandler (popSizePct : ℚ) (maxRequestedElements : ℕ) : RequestHandler :=
  ⟨1 / 2, popSizePct, 2, 4, maxRequestedElements, false, "", 0, none⟩

def threeChunks : IterableQueueModel (Chunk 1 10) :=
  positioned 4 2 3 fun i => ⟨100 + 10 * i.toUInt64⟩

def threeContent : List (Chunk 1 10) := (List.range 3).map fun i => ⟨100 + 10 * i.toUInt64⟩

theorem represents_threeChunks : Represents threeChunks threeContent :=
  represents_positioned _ (by decide) (by decide) (by decide) (by decide)

def refilledActions : List (CleanupAction (Chunk 1 10)) :=
  List.replicate 11 .cleanup ++ [.write ⟨130⟩] ++ List.replicate 2 .cleanup

def startedCall (popsCount : Int32) : CleanupCall (Chunk 1 10) :=
  init threeChunks threeContent .empty 18446744073709551615 popsCount

theorem run_cleansSafely_refilled :
    CleansSafely (shareHandler 1 0) 5
      ((Execution.run (step (shareHandler 1 0)) (startedCall 5) refilledActions).get
        (by decide +kernel)) :=
  run_cleansSafely
    (by decide +kernel :
      RequestHandler.init.conf (fun _ => true) (shareConf 1) = some (false, shareHandler 1 0))
    represents_threeChunks .empty 18446744073709551615 5 refilledActions _
    (Execution.stepsMeet_of_checkSteps (fun _ _ => of_decide_eq_true)
      (by decide +kernel : Execution.checkSteps (step (shareHandler 1 0))
        (fun s a => decide (MeetsCleanup (shareHandler 1 0) s a)) (startedCall 5)
        refilledActions = true))
    (Option.some_get _).symm

/-- The same cleanup with no write: it pops everything and reads the timestamp of no element. -/
theorem not_cleansSafely_of_popAll :
    ¬ ∀ (canOpen : DataRecorder → Bool) (c : RequestHandlerConf) (h₀ h : RequestHandler),
      h₀.conf canOpen c = some (false, h) →
      ∀ (queue : IterableQueueModel (Chunk 1 10)) (content : List (Chunk 1 10)),
        Represents queue content → ∀ (next : UInt64) (actions : List (CleanupAction (Chunk 1 10)))
          (s : CleanupCall (Chunk 1 10)),
          Execution.run (step h) (init queue content .empty next 5) actions = some s →
          CleansSafely h 5 s := by
  intro hall
  have hsafe := hall (fun _ => true) (shareConf 1) .init (shareHandler 1 0) (by decide +kernel)
    threeChunks threeContent represents_threeChunks 18446744073709551615
    (List.replicate 12 .cleanup) _ (Option.some_get (by decide +kernel)).symm
  exact hsafe.front_read (by decide +kernel)

end CleanupCall
end DataHandling

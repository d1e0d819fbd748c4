import DataHandling.Foundation.Stretch
import DataHandling.Recording.ZeroCopy

/-! Where the pointers of a zero-copy recording stand in the stream of accepted bytes. The bytes
that the recorder copies next lie before the element that was last when it loaded the end pointer,
on either side of the end of the buffer. -/

namespace DataHandling
open Cyclic Ordered ReadoutType IterableQueueModel

namespace RecordingSystem
variable {T : Type}

def offsetOf (base : ℕ) (s : RecordingSystem T) (payload b : ℕ) : ℕ :=
  (base * payload + b) % (s.queue.size * payload)

section Offsets
variable {base payload : ℕ} {s : RecordingSystem T} (h : Positions base s) (hpayload : 0 < payload)
include hpayload

theorem offsetOf_div (b : ℕ) :
    offsetOf base s payload b / payload = slotOf base s (b / payload) := by
  rw [offsetOf, Nat.mod_mul_left_div_self, Nat.mul_comm, Nat.mul_add_div hpayload, slotOf]

omit hpayload in
theorem offsetOf_mod (b : ℕ) : offsetOf base s payload b % payload = b % payload := by
  rw [offsetOf, Nat.mod_mul_left_mod, Nat.mul_add_mod']

omit hpayload in
theorem offsetOf_mul (p : ℕ) :
    offsetOf base s payload (p * payload) = slotOf base s p * payload := by
  rw [offsetOf, ← Nat.add_mul, Nat.mul_mod_mul_right, slotOf]

omit hpayload in
theorem offsetOf_add (b k : ℕ) : offsetOf base s payload (b + k) =
    (offsetOf base s payload b + k) % (s.queue.size * payload) := by
  rw [offsetOf, offsetOf, Nat.mod_add_mod, Nat.add_assoc]

include h

theorem Positions.endOfBuffer_pos : 0 < s.queue.size * payload := Nat.mul_pos h.size_pos hpayload

theorem Positions.offsetOf_lt (b : ℕ) : offsetOf base s payload b < s.queue.size * payload :=
  Nat.mod_lt _ (h.endOfBuffer_pos hpayload)

end Offsets

section Held
variable [ReadoutType T]

/-- `m_next_timestamp_to_record` is the timestamp of an element, and keeps the cleanup off it. -/
structure HeldAt (s : RecordingSystem T) (m : ℕ) : Prop where
  lt : m < s.accepted.length
  next_eq : s.nextTimestampToRecord = getTimestamp s.accepted[m]
  removed_le : s.removed ≤ m
  removed_lt : ∀ left, s.cleaner = .popping left → s.removed < m

omit [ReadoutType T] in
/-- With `m_next_timestamp_to_record` at zero nothing is removed. -/
structure Still (s : RecordingSystem T) : Prop where
  next_eq : s.nextTimestampToRecord = 0
  not_popping : ∀ left, s.cleaner ≠ .popping left

structure Aside (s s' : RecordingSystem T) : Prop where
  next_eq : s'.nextTimestampToRecord = s.nextTimestampToRecord
  size_eq : s'.queue.size = s.queue.size
  accepted : s.accepted <+: s'.accepted
  held : ∀ m, HeldAt s m → HeldAt s' m
  still : Still s → Still s' ∧ s'.removed = s.removed

variable {handler : RequestHandler} {base : ℕ} {s s' : RecordingSystem T}

theorem aside_write (x : T) : Aside s (s.write x) := by
  have hsize := size_write s.queue x
  rw [RecordingSystem.write]
  split_ifs with hwrite
  · refine ⟨rfl, hsize, List.prefix_append _ _, fun m hm => ⟨?_, ?_, hm.removed_le, hm.removed_lt⟩,
      fun h => ⟨⟨h.next_eq, h.not_popping⟩, rfl⟩⟩
    · exact Nat.lt_of_lt_of_le hm.lt (List.prefix_append _ _).length_le
    · rw [List.getElem_append_left hm.lt]
      exact hm.next_eq
  · exact ⟨rfl, hsize, List.prefix_rfl,
      fun m hm => ⟨hm.lt, hm.next_eq, hm.removed_le, hm.removed_lt⟩,
      fun h => ⟨⟨h.next_eq, h.not_popping⟩, rfl⟩⟩

theorem aside_cleanupCheck (hstep : s.cleanupCheck handler = some s') : Aside s s' := by
  obtain ⟨-, rfl | rfl⟩ := cleanupCheck_cases hstep
  · exact ⟨rfl, rfl, List.prefix_rfl, fun _ h => h, fun h => ⟨h, rfl⟩⟩
  · exact ⟨rfl, rfl, List.prefix_rfl, fun _ h => ⟨h.lt, h.next_eq, h.removed_le, nofun⟩,
      fun h => ⟨⟨h.next_eq, nofun⟩, rfl⟩⟩

theorem aside_cleanup (h : Positions base s) (hsorted : StrictlyIncreasing tsNat s.accepted)
    (hstep : s.stepCleaner handler = some s') : Aside s s' := by
  obtain ⟨-, haccepted, -, hnext, -⟩ := stepCleaner_frame hstep
  have hlower : ∀ left, s'.cleaner = .popping left → ∃ hlt : s.removed < s.accepted.length,
      tsNat s.accepted[s.removed] < s.nextTimestampToRecord.toNat := by
    intro left hleft
    obtain ⟨x, hx, hlt⟩ := stepCleaner_popping hstep hleft
    obtain ⟨hremoved, rfl⟩ := h.lt_of_front hx
    exact ⟨hremoved, UInt64.lt_iff_toNat_lt.mp hlt⟩
  have hqueue := stepCleaner_queue hstep
  refine ⟨hnext, ?_, haccepted ▸ List.prefix_rfl, fun m hm => ?_, fun hstill => ?_⟩
  · rcases hqueue with ⟨-, hpop, -⟩ | ⟨-, hqueue, -⟩
    · exact size_popFront hpop
    · rw [hqueue]
  · have hat : ∀ hlt : m < s'.accepted.length,
        s'.nextTimestampToRecord = getTimestamp s'.accepted[m] := by
      simp only [haccepted]
      exact fun _ => hnext.trans hm.next_eq
    have hlt : m < s'.accepted.length := haccepted.symm ▸ hm.lt
    rcases hqueue with ⟨⟨left, hleft, htesting⟩, -, hremoved⟩ | ⟨-, -, hremoved⟩
    · refine ⟨hlt, hat hlt, ?_, fun left' hleft' => ?_⟩
      · rw [hremoved]
        exact hm.removed_lt left hleft
      · rw [htesting] at hleft'
        cases hleft'
    · refine ⟨hlt, hat hlt, ?_, fun left hleft => ?_⟩
      · rw [hremoved]
        exact hm.removed_le
      · obtain ⟨hfront, hbelow⟩ := hlower left hleft
        rw [hremoved]
        by_contra hge
        rw [hm.next_eq] at hbelow
        exact absurd (hsorted.key_le (Nat.not_lt.mp hge) hfront) (Nat.not_le.mpr hbelow)
  · have hnone : ∀ left, s'.cleaner ≠ .popping left := by
      intro left hleft
      obtain ⟨_, hbelow⟩ := hlower left hleft
      rw [hstill.next_eq] at hbelow
      exact absurd hbelow (Nat.not_lt_zero _)
    refine ⟨⟨hnext.trans hstill.next_eq, hnone⟩, ?_⟩
    rcases hqueue with ⟨⟨left, hleft, -⟩, -⟩ | ⟨-, -, hremoved⟩
    · exact absurd hleft (hstill.not_popping left)
    · exact hremoved

end Held
end RecordingSystem

namespace ZeroCopySystem
open RecordingSystem Stretch
variable {T : Type} [ReadoutType T] (conf : ZeroCopyConf T) (base : ℕ) (s : ZeroCopySystem T)

def stream : List UInt8 := s.accepted.flatMap conf.rawBytes

/-- The file holds the stream from the element at `first` up to byte `w`, where the next one is
copied from. The element at `m` holds off the cleanup, and the one at `e` is accepted. -/
structure Copied (first m w e : ℕ) : Prop where
  first_lt : first < s.accepted.length
  start_eq : s.startElement = some s.accepted[first]
  first_le : first * conf.fixedPayloadSize ≤ w
  file_eq : s.file = stretch (s.stream conf) (first * conf.fixedPayloadSize) w
  held : HeldAt s.toRecordingSystem m
  held_le : m * conf.fixedPayloadSize ≤ w
  end_lt : e < s.accepted.length
  le_end : w ≤ e * conf.fixedPayloadSize

def PointsTo (w : ℕ) : Prop :=
  s.writePointer = some (offsetOf base s.toRecordingSystem conf.fixedPayloadSize w)

structure Blank : Prop where
  file_eq : s.file = []
  aligned : ∀ wp, s.writePointer = some wp → wp % conf.fixedPayloadSize = 0
  start_mem : ∀ x, s.startElement = some x → x ∈ s.accepted

def Whole : Prop :=
  (s.file = [] ∧ ∀ x, s.startElement = some x → x ∈ s.accepted) ∨
    ∃ first k, ∃ hfirst : first < s.accepted.length, first ≤ k ∧ k ≤ s.accepted.length ∧
      s.startElement = some s.accepted[first] ∧
      s.file = stretch (s.stream conf) (first * conf.fixedPayloadSize) (k * conf.fixedPayloadSize)

def Ready : Prop :=
  (s.nextTimestampToRecord = 0 ∧ Blank conf s) ∨
    ∃ first m w e, Copied conf s first m w e ∧ PointsTo conf base s w

def Seeks (begin : ℕ) : Prop :=
  Blank conf s ∧ ∃ m p, HeldAt s.toRecordingSystem m ∧ m ≤ p ∧ p < s.accepted.length ∧
    begin = slotOf base s.toRecordingSystem p

def EndsAt (currentEnd : ℤ) (e : ℕ) : Prop :=
  currentEnd = ((slotOf base s.toRecordingSystem e * conf.fixedPayloadSize : ℕ) : ℤ)

/-- The next `left` bytes of the stream are to be copied, all of them before the end of the
buffer. -/
structure Copying (source left w e : ℕ) : Prop where
  source_eq : 0 < left → source = offsetOf base s.toRecordingSystem conf.fixedPayloadSize w
  le_end : w + left ≤ e * conf.fixedPayloadSize
  inside : offsetOf base s.toRecordingSystem conf.fixedPayloadSize w + left ≤ s.endOfBuffer conf

def PhaseOk : ZeroCopyRecorder → Prop
  | .idle | .finishing => Whole conf s
  | .started => Blank conf s
  | .outer | .waiting => Ready conf base s
  | .checking =>
    Ready conf base s ∧ (s.nextTimestampToRecord = 0 → Still s.toRecordingSystem)
  | .beginning => Blank conf s ∧ Still s.toRecordingSystem
  | .beginLoaded currentRead =>
    Blank conf s ∧ Still s.toRecordingSystem ∧
      currentRead = slotOf base s.toRecordingSystem s.removed
  | .beginFound begin =>
    Blank conf s ∧ Still s.toRecordingSystem ∧ s.removed < s.accepted.length ∧
      begin = slotOf base s.toRecordingSystem s.removed
  | .aligning begin | .advancing begin | .advancingLoaded begin _ => Seeks conf base s begin
  | .stepped begin | .steppedLoaded begin _ =>
    Blank conf s ∧ ∃ m p, HeldAt s.toRecordingSystem m ∧ m ≤ p ∧ p ≤ s.accepted.length ∧
      begin = slotOf base s.toRecordingSystem p
  | .tested begin | .testedLoaded begin _ =>
    Blank conf s ∧ (begin = endIndex ∨ Seeks conf base s begin)
  | .endLoading => ∃ first m w e, Copied conf s first m w e ∧ PointsTo conf base s w
  | .endLoaded currentWrite => ∃ first m w e, Copied conf s first m w e ∧
      PointsTo conf base s w ∧ currentWrite = slotOf base s.toRecordingSystem (e + 1)
  | .chunks currentEnd _ | .updating currentEnd _ => ∃ first m w e, Copied conf s first m w e ∧
      PointsTo conf base s w ∧ EndsAt conf base s currentEnd e
  | .copying currentEnd _ source left target => ∃ first m w e, Copied conf s first m w e ∧
      EndsAt conf base s currentEnd e ∧ Copying conf base s source left w e ∧
      (if target = s.endOfBuffer conf then 0 else target) =
        offsetOf base s.toRecordingSystem conf.fixedPayloadSize (w + left)
  | .completing source left => ∃ first m w e, Copied conf s first m w e ∧
      Copying conf base s source left w e ∧ conf.fixedPayloadSize ∣ w + left

end ZeroCopySystem
end DataHandling

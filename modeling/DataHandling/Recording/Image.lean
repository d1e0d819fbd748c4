import DataHandling.Recording.ChunkPointers
import DataHandling.Chunk

/-! A zero-copy recording writes the bytes of consecutive accepted elements, from an aligned one on
and up to the end of an element, as long as it begins once and `back()` can be read. -/

namespace DataHandling.ZeroCopySystem
open Cyclic Ordered ReadoutType IterableQueueModel RecordingSystem Stretch

variable {T : Type}

section Conditions
variable (s : ZeroCopySystem T)

def searchGood : Bool :=
  match s.thread with
  | .testedLoaded begin currentRead => goodOf s.queue currentRead begin
  | _ => true

def backReadable : Bool :=
  match s.thread with
  | .endLoaded currentWrite =>
    decide ((if currentWrite = 0 then s.queue.size - 1 else currentWrite - 1) < 2147483648)
  | _ => true

/-- The search of an aligned element does not run out of the buffer. -/
def StartFound : ZeroCopyAction T → Prop
  | .recorder => s.searchGood = true
  | _ => True

/-- The recorder does not take itself for one that has not begun: with
`m_next_timestamp_to_record` at zero nothing is in the file. -/
def BegunOnce : ZeroCopyAction T → Prop
  | .recorder => s.thread = .checking → s.nextTimestampToRecord = 0 → s.file = []
  | _ => True

def EndReadable : ZeroCopyAction T → Prop
  | .recorder => s.backReadable = true
  | _ => True

end Conditions

variable [ReadoutType T] {conf : ZeroCopyConf T} {base : ℕ} {s s' : ZeroCopySystem T}

theorem stepThread_frame (hstep : s.stepThread conf = some s') :
    s'.queue = s.queue ∧ s'.memory = s.memory ∧ s'.accepted = s.accepted ∧
      s'.removed = s.removed := by
  unfold stepThread at hstep
  split at hstep
  case h_1 => cases hstep
  case h_4 =>
    split_ifs at hstep
    obtain rfl := Option.some.inj hstep
    exact ⟨rfl, rfl, rfl, rfl⟩
  case h_9 | h_15 =>
    split_ifs at hstep <;> obtain rfl := Option.some.inj hstep <;> exact ⟨rfl, rfl, rfl, rfl⟩
  case h_18 =>
    split_ifs at hstep
    · obtain ⟨_, _, rfl⟩ := Option.map_eq_some_iff.mp hstep
      exact ⟨rfl, rfl, rfl, rfl⟩
    · obtain rfl := Option.some.inj hstep
      exact ⟨rfl, rfl, rfl, rfl⟩
  case h_8 | h_20 | h_21 | h_23 =>
    obtain ⟨_, _, rfl⟩ := Option.map_eq_some_iff.mp hstep
    exact ⟨rfl, rfl, rfl, rfl⟩
  all_goals
    obtain rfl := Option.some.inj hstep
    exact ⟨rfl, rfl, rfl, rfl⟩

section Thread
variable (h : Positions base s.toRecordingSystem) (hpayload : 0 < conf.fixedPayloadSize)
  (hraw : ∀ x, (conf.rawBytes x).length = conf.fixedPayloadSize)

include hraw in
theorem phaseOk_goTo {r : ZeroCopyRecorder} (hr : PhaseOk conf base s r) :
    PhaseOk conf base (s.goTo r) (s.goTo r).thread := (beside_goTo r).phaseOk hraw hr

include hpayload

theorem Copied.held_le_end {first m w e : ℕ} (hc : Copied conf s first m w e) : m ≤ e :=
  Nat.le_of_mul_le_mul_right (hc.held_le.trans hc.le_end) hpayload

theorem Copied.div_lt {first m w e : ℕ} (hc : Copied conf s first m w e) :
    m ≤ w / conf.fixedPayloadSize ∧ w / conf.fixedPayloadSize < s.accepted.length := by
  refine ⟨(Nat.le_div_iff_mul_le hpayload).mpr hc.held_le, ?_⟩
  exact Nat.lt_of_le_of_lt (Nat.div_le_of_le_mul (by rw [Nat.mul_comm]; exact hc.le_end)) hc.end_lt

theorem Copied.whole {first m w e : ℕ} (hc : Copied conf s first m w e)
    (hdvd : conf.fixedPayloadSize ∣ w) : Whole conf s := by
  obtain ⟨k, rfl⟩ := hdvd
  have hk : k ≤ e := Nat.le_of_mul_le_mul_right (Nat.mul_comm k _ ▸ hc.le_end) hpayload
  have hfirst : first ≤ k :=
    Nat.le_of_mul_le_mul_right (Nat.mul_comm k _ ▸ hc.first_le) hpayload
  refine .inr ⟨first, k, hc.first_lt, hfirst, hk.trans hc.end_lt.le, hc.start_eq, ?_⟩
  rw [Nat.mul_comm k]
  exact hc.file_eq

omit hpayload in
theorem Copied.toLast {first m w e : ℕ} (hc : Copied conf s first m w e) :
    Copied conf s first m w (s.accepted.length - 1) := by
  have hlast : e ≤ s.accepted.length - 1 := Nat.le_sub_one_of_lt hc.end_lt
  have hpos : s.accepted.length - 1 < s.accepted.length :=
    Nat.sub_one_lt (Nat.ne_of_gt (Nat.zero_lt_of_lt hc.end_lt))
  exact ⟨hc.first_lt, hc.start_eq, hc.first_le, hc.file_eq, hc.held, hc.held_le, hpos,
    hc.le_end.trans (Nat.mul_le_mul_right _ hlast)⟩

theorem Copied.updated {first m w e : ℕ} (hc : Copied conf s first m w e)
    (hlt : w / conf.fixedPayloadSize < s.accepted.length) (r : ZeroCopyRecorder) (wp : Option ℕ) :
    Copied conf { s with
        nextTimestampToRecord := getTimestamp s.accepted[w / conf.fixedPayloadSize]
        thread := r
        writePointer := wp } first (w / conf.fixedPayloadSize) w e := by
  have hm := (hc.div_lt hpayload).1
  exact ⟨hc.first_lt, hc.start_eq, hc.first_le, hc.file_eq, ⟨hlt, rfl, hc.held.removed_le.trans hm,
    fun left hleft => (hc.held.removed_lt left hleft).trans_le hm⟩, Nat.div_mul_le_self _ _,
    hc.end_lt, hc.le_end⟩

include hraw

omit hpayload in
theorem Copied.blank {first m w e : ℕ} (hc : Copied conf s first m w e)
    (hw : PointsTo conf base s w) (hfile : s.file = []) : Blank conf s := by
  have hlen : w ≤ (s.stream conf).length := by
    rw [stream, length_flatMap hraw]
    exact hc.le_end.trans (Nat.mul_le_mul_right _ hc.end_lt.le)
  have hempty := congrArg List.length hc.file_eq
  rw [length_stretch hlen, hfile, List.length_nil] at hempty
  have hstart : w = first * conf.fixedPayloadSize := by
    have := hc.first_le
    omega
  refine ⟨hfile, fun wp hwp => ?_, fun x hx => ?_⟩
  · rw [hw] at hwp
    obtain rfl := Option.some.inj hwp
    rw [offsetOf_mod, hstart, Nat.mul_mod_left]
  · rw [hc.start_eq] at hx
    exact Option.some.inj hx ▸ List.getElem_mem hc.first_lt

include h

theorem Copied.copy {first m w e source left : ℕ} (hc : Copied conf s first m w e)
    (hcopying : Copying conf base s source (left + 1) w e) {byte : UInt8}
    (hbyte : s.byteAt conf source = some byte) (r : ZeroCopyRecorder) :
    let t : ZeroCopySystem T := { s with file := s.file ++ [byte], thread := r }
    Copied conf t first m (w + 1) e ∧ Copying conf base t (source + 1) left (w + 1) e := by
  intro t
  have hnext := hcopying.next h hpayload
  have hw : w < e * conf.fixedPayloadSize := by
    have := hcopying.le_end
    omega
  obtain ⟨-, byte', hbyte', hstream⟩ := hc.byteAt h hpayload hraw hw
  rw [← hcopying.source_eq (Nat.succ_pos left), hbyte] at hbyte'
  obtain rfl := Option.some.inj hbyte'
  refine ⟨⟨hc.first_lt, hc.start_eq, Nat.le_succ_of_le hc.first_le, ?_, ?_,
    Nat.le_succ_of_le hc.held_le, hc.end_lt, hw⟩, ⟨hnext.source_eq, hnext.le_end, hnext.inside⟩⟩
  · exact (congrArg (· ++ [byte]) hc.file_eq).trans (stretch_succ hc.first_le hstream).symm
  · exact hc.held

omit hraw in
theorem phaseOk_completeFrame (hr : Ready conf base s) :
    PhaseOk conf base s (completeFrame conf s.writePointer) := by
  rcases hr with ⟨-, hblank⟩ | ⟨first, m, w, e, hc, hw⟩
  · have hwhole : Whole conf s := .inl ⟨hblank.file_eq, hblank.start_mem⟩
    cases hp : s.writePointer with
    | none => exact hwhole
    | some wp =>
      have haligned : wp / conf.fixedPayloadSize * conf.fixedPayloadSize = wp :=
        Nat.div_mul_cancel (Nat.dvd_of_mod_eq_zero (hblank.aligned wp hp))
      simp only [completeFrame, haligned, ne_eq, not_true_eq_false, if_false]
      exact hwhole
  · rw [hw, completeFrame]
    have hdiv := Nat.div_add_mod' w conf.fixedPayloadSize
    have hoffset := Nat.div_add_mod' (offsetOf base s.toRecordingSystem conf.fixedPayloadSize w)
      conf.fixedPayloadSize
    rw [offsetOf_mod] at hoffset
    have hrest := Nat.mod_lt w hpayload
    split_ifs with hpartial
    · -- the rest of the element that `w` is inside of
      have hinside : 0 < w % conf.fixedPayloadSize := by omega
      have hend : (w / conf.fixedPayloadSize + 1) * conf.fixedPayloadSize ≤
          e * conf.fixedPayloadSize := by
        refine Nat.mul_le_mul_right _ (Nat.lt_of_mul_lt_mul_right (a := conf.fixedPayloadSize) ?_)
        have := hc.le_end
        omega
      have hslot : (slotOf base s.toRecordingSystem (w / conf.fixedPayloadSize) + 1) *
          conf.fixedPayloadSize ≤ s.endOfBuffer conf :=
        Nat.mul_le_mul_right _ (h.slotOf_lt _)
      rw [offsetOf_div hpayload] at hoffset ⊢
      rw [Nat.add_mul, Nat.one_mul] at hend hslot
      refine ⟨first, m, w, e, hc, ⟨fun _ => rfl, by omega, by omega⟩,
        Dvd.intro_left (w / conf.fixedPayloadSize + 1) ?_⟩
      rw [Nat.add_mul, Nat.one_mul]
      omega
    · refine hc.whole hpayload (Nat.dvd_of_mod_eq_zero ?_)
      rw [not_not] at hpartial
      omega

omit hpayload hraw in
theorem Seeks.begins {begin : ℕ} (hseeks : Seeks conf base s begin) :
    let t : ZeroCopySystem T := { s with
      writePointer := some (begin * conf.fixedPayloadSize)
      startElement := s.memory begin
      thread := .endLoading }
    ∃ first m w e, Copied conf t first m w e ∧ PointsTo conf base t w := by
  intro t
  obtain ⟨hblank, m, p, hm, hmp, hp, rfl⟩ := hseeks
  have hmemory := h.memory_slotOf (Nat.le_succ_of_le (hm.removed_le.trans hmp)) hp
  refine ⟨p, m, p * conf.fixedPayloadSize, p, ⟨hp, hmemory, Nat.le_refl _, ?_,
    ⟨hm.lt, hm.next_eq, hm.removed_le, hm.removed_lt⟩, Nat.mul_le_mul_right _ hmp, hp,
    Nat.le_refl _⟩, ?_⟩
  · exact hblank.file_eq.trans stretch_self.symm
  · exact congrArg some (offsetOf_mul p).symm

theorem phaseOk_copying {currentEnd : ℤ} {considered source left target : ℕ}
    (hr : s.thread = .copying currentEnd considered source left target)
    (hphase : PhaseOk conf base s (.copying currentEnd considered source left target))
    (hstep : s.stepThread conf = some s') : PhaseOk conf base s' s'.thread := by
  obtain ⟨first, m, w, e, hc, hend, hcopying, htarget⟩ := hphase
  cases left with
  | zero =>
    simp only [stepThread, hr, Option.some.injEq] at hstep
    subst hstep
    exact ⟨first, m, w, e, ⟨hc.first_lt, hc.start_eq, hc.first_le, hc.file_eq,
      ⟨hc.held.lt, hc.held.next_eq, hc.held.removed_le, hc.held.removed_lt⟩, hc.held_le,
      hc.end_lt, hc.le_end⟩, congrArg some htarget, hend⟩
  | succ left =>
    simp only [stepThread, hr] at hstep
    obtain ⟨byte, hbyte, rfl⟩ := Option.map_eq_some_iff.mp hstep
    obtain ⟨hc', hcopying'⟩ := hc.copy h hpayload hraw hcopying hbyte
      (.copying currentEnd considered (source + 1) left target)
    refine ⟨first, m, w + 1, e, hc', hend, hcopying', ?_⟩
    rw [Nat.add_right_comm]
    exact htarget

theorem phaseOk_completing {source left : ℕ} (hr : s.thread = .completing source left)
    (hphase : PhaseOk conf base s (.completing source left))
    (hstep : s.stepThread conf = some s') : PhaseOk conf base s' s'.thread := by
  obtain ⟨first, m, w, e, hc, hcopying, hdvd⟩ := hphase
  cases left with
  | zero =>
    simp only [stepThread, hr, Option.some.injEq] at hstep
    subst hstep
    exact phaseOk_goTo hraw (hc.whole hpayload hdvd)
  | succ left =>
    simp only [stepThread, hr] at hstep
    obtain ⟨byte, hbyte, rfl⟩ := Option.map_eq_some_iff.mp hstep
    obtain ⟨hc', hcopying'⟩ := hc.copy h hpayload hraw hcopying hbyte
      (.completing (source + 1) left)
    refine ⟨first, m, w + 1, e, hc', hcopying', ?_⟩
    rw [Nat.add_right_comm]
    exact hdvd

end Thread

section Phases
variable (h : Positions base s.toRecordingSystem)
  (hraw : ∀ x, (conf.rawBytes x).length = conf.fixedPayloadSize)
include h hraw

omit h in
theorem phaseOk_waiting (hr : s.thread = .waiting)
    (hphase : PhaseOk conf base s .waiting)
    (hstep : s.stepThread conf = some s') : PhaseOk conf base s' s'.thread := by
  simp only [stepThread, hr] at hstep
  split_ifs at hstep with hfree
  obtain rfl := Option.some.inj hstep
  refine phaseOk_goTo hraw ⟨hphase, fun hnext => ⟨hnext, fun left hleft => ?_⟩⟩
  have hmutex := hfree.1
  rw [mutexFree, hleft] at hmutex
  cases hmutex

omit h in
theorem phaseOk_checking (hr : s.thread = .checking)
    (hphase : PhaseOk conf base s .checking)
    (hbegun : BegunOnce s .recorder)
    (hstep : s.stepThread conf = some s') : PhaseOk conf base s' s'.thread := by
  simp only [stepThread, hr, Option.some.injEq] at hstep
  obtain ⟨hready, hstill⟩ := hphase
  subst hstep
  refine phaseOk_goTo hraw ?_
  split_ifs with hnext
  · refine ⟨?_, hstill hnext⟩
    rcases hready with ⟨-, hblank⟩ | ⟨first, m, w, e, hc, hw⟩
    · exact hblank
    · exact hc.blank hraw hw (hbegun hr hnext)
  · exact hready.resolve_left fun hblank => hnext hblank.1

theorem phaseOk_beginLoaded {currentRead : ℕ} (hr : s.thread = .beginLoaded currentRead)
    (hphase : PhaseOk conf base s (.beginLoaded currentRead))
    (hstep : s.stepThread conf = some s') : PhaseOk conf base s' s'.thread := by
  simp only [stepThread, hr, Option.some.injEq] at hstep
  obtain ⟨hblank, hstill, rfl⟩ := hphase
  subst hstep
  refine phaseOk_goTo hraw ?_
  split_ifs with hempty
  · exact .inl ⟨hstill.next_eq, hblank⟩
  · refine ⟨hblank, hstill, Nat.lt_of_le_of_ne h.removed_le fun heq => hempty ?_, rfl⟩
    rw [h.writeIndex_eq, heq]

omit hraw in
theorem phaseOk_beginFound {begin : ℕ} (hr : s.thread = .beginFound begin)
    (hphase : PhaseOk conf base s (.beginFound begin))
    (hstep : s.stepThread conf = some s') : PhaseOk conf base s' s'.thread := by
  simp only [stepThread, hr] at hstep
  obtain ⟨hblank, hstill, hlt, rfl⟩ := hphase
  rw [h.memory_slotOf (Nat.le_succ _) hlt] at hstep
  obtain rfl := Option.some.inj hstep
  exact ⟨⟨hblank.file_eq, hblank.aligned, hblank.start_mem⟩, s.removed, s.removed,
    ⟨hlt, rfl, Nat.le_refl _, fun left hleft => absurd hleft (hstill.not_popping left)⟩,
    Nat.le_refl _, hlt, rfl⟩

theorem phaseOk_aligning {begin : ℕ} (hr : s.thread = .aligning begin)
    (hphase : PhaseOk conf base s (.aligning begin))
    (hstep : s.stepThread conf = some s') : PhaseOk conf base s' s'.thread := by
  simp only [stepThread, hr] at hstep
  split_ifs at hstep
  · obtain rfl := Option.some.inj hstep
    exact phaseOk_goTo hraw hphase
  · obtain rfl := Option.some.inj hstep
    exact hphase.begins h

theorem phaseOk_advancingLoaded {begin currentRead : ℕ}
    (hr : s.thread = .advancingLoaded begin currentRead)
    (hphase : PhaseOk conf base s (.advancingLoaded begin currentRead))
    (hstep : s.stepThread conf = some s') : PhaseOk conf base s' s'.thread := by
  simp only [stepThread, hr, Option.some.injEq] at hstep
  obtain ⟨hblank, m, p, hm, hmp, hp, rfl⟩ := hphase
  subst hstep
  refine phaseOk_goTo hraw ⟨hblank, m, ?_⟩
  split_ifs
  · exact ⟨p + 1, hm, Nat.le_succ_of_le hmp, hp, h.nextRecord_eq p⟩
  · exact ⟨p, hm, hmp, hp.le, rfl⟩

theorem phaseOk_steppedLoaded {begin currentRead : ℕ}
    (hr : s.thread = .steppedLoaded begin currentRead)
    (hphase : PhaseOk conf base s (.steppedLoaded begin currentRead))
    (hstep : s.stepThread conf = some s') : PhaseOk conf base s' s'.thread := by
  simp only [stepThread, hr, Option.some.injEq] at hstep
  obtain ⟨hblank, m, p, hm, hmp, hp, rfl⟩ := hphase
  subst hstep
  refine phaseOk_goTo hraw ⟨hblank, ?_⟩
  split_ifs with hgood
  · refine .inr ⟨hblank, m, p, hm, hmp, Nat.lt_of_le_of_ne hp fun heq => ?_, rfl⟩
    rw [heq, ← h.writeIndex_eq, goodOf_writeIndex] at hgood
    cases hgood
  · exact .inl rfl

omit h in
theorem phaseOk_testedLoaded {begin currentRead : ℕ}
    (hr : s.thread = .testedLoaded begin currentRead)
    (hphase : PhaseOk conf base s (.testedLoaded begin currentRead))
    (hfound : StartFound s .recorder)
    (hstep : s.stepThread conf = some s') : PhaseOk conf base s' s'.thread := by
  simp only [stepThread, hr] at hstep
  simp only [StartFound, searchGood, hr] at hfound
  rw [if_pos hfound] at hstep
  obtain rfl := Option.some.inj hstep
  refine phaseOk_goTo hraw (hphase.2.resolve_left fun hend => ?_)
  rw [hend, goodOf_endIndex] at hfound
  cases hfound

theorem phaseOk_endLoading (hr : s.thread = .endLoading)
    (hphase : PhaseOk conf base s .endLoading)
    (hstep : s.stepThread conf = some s') : PhaseOk conf base s' s'.thread := by
  simp only [stepThread, hr, Option.some.injEq] at hstep
  obtain ⟨first, m, w, e, hc, hw⟩ := hphase
  subst hstep
  refine phaseOk_goTo hraw ⟨first, m, w, s.accepted.length - 1, hc.toLast, hw, ?_⟩
  rw [Nat.sub_add_cancel (Nat.one_le_of_lt hc.end_lt)]
  exact h.writeIndex_eq

theorem phaseOk_endLoaded {currentWrite : ℕ} (hpayload : 0 < conf.fixedPayloadSize)
    (hr : s.thread = .endLoaded currentWrite)
    (hphase : PhaseOk conf base s (.endLoaded currentWrite))
    (hreadable : EndReadable s .recorder)
    (hstep : s.stepThread conf = some s') : PhaseOk conf base s' s'.thread := by
  simp only [stepThread, hr, Option.some.injEq] at hstep
  simp only [EndReadable, backReadable, hr, decide_eq_true_eq] at hreadable
  obtain ⟨first, m, w, e, hc, hw, rfl⟩ := hphase
  subst hstep
  have hlast : slotOf base s.toRecordingSystem e < 2147483648 := by
    have hsucc := slotOf_succ h e
    have hlt := h.slotOf_lt e
    split_ifs at hsucc hreadable <;> omega
  have hremoved := hc.held.removed_le.trans (hc.held_le_end hpayload)
  exact phaseOk_goTo hraw ⟨first, m, w, e, hc, hw, backPointer_eq h hremoved hc.end_lt hlast⟩

theorem phaseOk_chunks {currentEnd : ℤ} {considered : ℕ} (hpayload : 0 < conf.fixedPayloadSize)
    (hr : s.thread = .chunks currentEnd considered)
    (hphase : PhaseOk conf base s (.chunks currentEnd considered))
    (hstep : s.stepThread conf = some s') : PhaseOk conf base s' s'.thread := by
  simp only [stepThread, hr] at hstep
  obtain ⟨first, m, w, e, hc, hw, hend⟩ := hphase
  split_ifs at hstep
  · rw [hw] at hstep
    obtain rfl := Option.some.inj hstep
    exact phaseOk_goTo hraw (phaseOk_considerChunk h hpayload hc hw hend)
  · obtain rfl := Option.some.inj hstep
    exact phaseOk_goTo hraw (.inr ⟨first, m, w, e, hc, hw⟩)

omit hraw in
theorem phaseOk_updating {currentEnd : ℤ} {considered : ℕ} (hpayload : 0 < conf.fixedPayloadSize)
    (hr : s.thread = .updating currentEnd considered)
    (hphase : PhaseOk conf base s (.updating currentEnd considered))
    (hstep : s.stepThread conf = some s') : PhaseOk conf base s' s'.thread := by
  simp only [stepThread, hr] at hstep
  obtain ⟨first, m, w, e, hc, hw, hend⟩ := hphase
  obtain ⟨hm, hlt⟩ := hc.div_lt hpayload
  have hremoved := hc.held.removed_le
  have hmemory := h.memory_slotOf (Nat.le_succ_of_le (hremoved.trans hm)) hlt
  rw [hw, Option.bind_some, offsetOf_div hpayload, hmemory] at hstep
  obtain rfl := Option.some.inj hstep
  exact ⟨first, w / conf.fixedPayloadSize, w, e, hc.updated hpayload hlt _ _, rfl, hend⟩

theorem phaseOk_stepThread (hpayload : 0 < conf.fixedPayloadSize)
    (hphase : PhaseOk conf base s s.thread)
    (hfound : StartFound s .recorder) (hbegun : BegunOnce s .recorder)
    (hreadable : EndReadable s .recorder) (hstep : s.stepThread conf = some s') :
    PhaseOk conf base s' s'.thread := by
  cases hr : s.thread with
  | idle => simp only [stepThread, hr, reduceCtorEq] at hstep
  | started =>
    simp only [stepThread, hr, Option.some.injEq] at hstep
    rw [hr] at hphase
    subst hstep
    exact .inl ⟨rfl, hphase.file_eq, hphase.aligned, hphase.start_mem⟩
  | outer =>
    simp only [stepThread, hr, Option.some.injEq] at hstep
    rw [hr] at hphase
    subst hstep
    refine phaseOk_goTo hraw ?_
    split_ifs
    · exact hphase
    · exact hphase
  | waiting => exact phaseOk_waiting hraw hr (hr ▸ hphase) hstep
  | checking => exact phaseOk_checking hraw hr (hr ▸ hphase) hbegun hstep
  | beginning =>
    simp only [stepThread, hr, Option.some.injEq] at hstep
    rw [hr] at hphase
    subst hstep
    exact phaseOk_goTo hraw ⟨hphase.1, hphase.2, h.readIndex_slotOf⟩
  | beginLoaded currentRead => exact phaseOk_beginLoaded h hraw hr (hr ▸ hphase) hstep
  | beginFound begin => exact phaseOk_beginFound h hr (hr ▸ hphase) hstep
  | aligning begin => exact phaseOk_aligning h hraw hr (hr ▸ hphase) hstep
  | advancing begin =>
    simp only [stepThread, hr, Option.some.injEq] at hstep
    rw [hr] at hphase
    subst hstep
    exact phaseOk_goTo hraw hphase
  | advancingLoaded begin currentRead => exact phaseOk_advancingLoaded h hraw hr (hr ▸ hphase) hstep
  | stepped begin =>
    simp only [stepThread, hr, Option.some.injEq] at hstep
    rw [hr] at hphase
    subst hstep
    exact phaseOk_goTo hraw hphase
  | steppedLoaded begin currentRead => exact phaseOk_steppedLoaded h hraw hr (hr ▸ hphase) hstep
  | tested begin =>
    simp only [stepThread, hr, Option.some.injEq] at hstep
    rw [hr] at hphase
    subst hstep
    exact phaseOk_goTo hraw hphase
  | testedLoaded begin currentRead => exact phaseOk_testedLoaded hraw hr (hr ▸ hphase) hfound hstep
  | endLoading => exact phaseOk_endLoading h hraw hr (hr ▸ hphase) hstep
  | endLoaded currentWrite =>
    exact phaseOk_endLoaded h hraw hpayload hr (hr ▸ hphase) hreadable hstep
  | chunks currentEnd considered => exact phaseOk_chunks h hraw hpayload hr (hr ▸ hphase) hstep
  | copying currentEnd considered source left target =>
    rw [hr] at hphase
    exact phaseOk_copying h hpayload hraw hr hphase hstep
  | updating currentEnd considered => exact phaseOk_updating h hpayload hr (hr ▸ hphase) hstep
  | completing source left =>
    rw [hr] at hphase
    exact phaseOk_completing h hpayload hraw hr hphase hstep
  | finishing =>
    simp only [stepThread, hr, Option.some.injEq] at hstep
    rw [hr] at hphase
    subst hstep
    exact hphase

end Phases

section Invariant
variable (hpayload : 0 < conf.fixedPayloadSize)
  (hraw : ∀ x, (conf.rawBytes x).length = conf.fixedPayloadSize)

structure Imaging (conf : ZeroCopyConf T) (base : ℕ) (s : ZeroCopySystem T) : Prop where
  positions : Positions base s.toRecordingSystem
  sorted : StrictlyIncreasing tsNat s.accepted
  phase : PhaseOk conf base s s.thread

/-- The timestamps increase strictly along the accepted elements. -/
def PayloadsIncreasing (s : ZeroCopySystem T) : ZeroCopyAction T → Prop
  | .write x => AcceptedIncreasing s.toRecordingSystem (.write x)
  | _ => True

include hpayload hraw

theorem Imaging.step {handler : RequestHandler} (h : Imaging conf base s) {a : ZeroCopyAction T}
    (hincreasing : PayloadsIncreasing s a) (hfound : StartFound s a) (hbegun : BegunOnce s a)
    (hreadable : EndReadable s a)
    (hstep : ZeroCopySystem.step conf handler s a = some s') : Imaging conf base s' := by
  have hpos := h.positions
  cases a with
  | write x =>
    obtain rfl := Option.some.inj hstep
    have hb : RecordingSystem.step handler s.toRecordingSystem (.write x) =
        some (s.toRecordingSystem.write x) := rfl
    have hincreasing' : AcceptedIncreasing s.toRecordingSystem (.write x) := hincreasing
    exact ⟨hpos.write x, sorted_step h.sorted hincreasing' hb,
      (beside_shared (aside_write x)).phaseOk hraw h.phase⟩
  | cleanupCheck =>
    obtain ⟨b, hb, rfl⟩ := Option.map_eq_some_iff.mp hstep
    exact ⟨hpos.step (a := .cleanupCheck) hb, sorted_step h.sorted (a := .cleanupCheck) trivial hb,
      (beside_shared (aside_cleanupCheck hb)).phaseOk hraw h.phase⟩
  | cleanup =>
    obtain ⟨b, hb, rfl⟩ := Option.map_eq_some_iff.mp hstep
    exact ⟨hpos.step (a := .cleanup) hb, sorted_step h.sorted (a := .cleanup) trivial hb,
      (beside_shared (aside_cleanup hpos h.sorted hb)).phaseOk hraw h.phase⟩
  | record duration =>
    rw [ZeroCopySystem.step, ZeroCopySystem.record] at hstep
    split_ifs at hstep
    · obtain rfl := Option.some.inj hstep
      exact h
    · split at hstep
      · obtain rfl := Option.some.inj hstep
        exact ⟨hpos.congr rfl rfl rfl rfl, h.sorted, rfl, nofun, nofun⟩
      · cases hstep
  | recorder =>
    obtain ⟨hqueue, hmemory, haccepted, hremoved⟩ := stepThread_frame hstep
    exact ⟨hpos.congr hqueue hmemory haccepted hremoved, haccepted ▸ h.sorted,
      phaseOk_stepThread hpos hraw hpayload h.phase hfound hbegun hreadable hstep⟩
  | timeUp =>
    rw [ZeroCopySystem.step, ZeroCopySystem.timeUp] at hstep
    split at hstep
    · next houter =>
      obtain rfl := Option.some.inj hstep
      have hphase := h.phase
      rw [houter] at hphase
      exact ⟨hpos, h.sorted, phaseOk_goTo hraw (phaseOk_completeFrame hpos hpayload hphase)⟩
    · cases hstep

end Invariant

/-- The file holds the bytes of consecutive accepted elements from the start element on, and whole
elements once the recording is over. What is copied next stands in a constructed slot. -/
structure RecordsImage (conf : ZeroCopyConf T) (s : ZeroCopySystem T) : Prop where
  unbegun : s.startElement = none → s.file = []
  image : ∀ x, s.startElement = some x → ∃ before after, s.accepted = before ++ x :: after ∧
    s.file <+: (x :: after).flatMap conf.rawBytes ∧
    (s.thread = .idle → ∃ k, s.file = ((x :: after).take k).flatMap conf.rawBytes)
  live : ∀ source left, ((∃ currentEnd considered target,
      s.thread = .copying currentEnd considered source (left + 1) target) ∨
      s.thread = .completing source (left + 1)) →
    ∃ x ∈ s.accepted, s.queue.records (source / conf.fixedPayloadSize) = some x ∧
      s.memory (source / conf.fixedPayloadSize) = some x

section Property

def FileOk (conf : ZeroCopyConf T) (s : ZeroCopySystem T) : Prop :=
  (s.file = [] ∧ ∀ x, s.startElement = some x → x ∈ s.accepted) ∨
    ∃ first w, ∃ hfirst : first < s.accepted.length, s.startElement = some s.accepted[first] ∧
      s.file = stretch (s.stream conf) (first * conf.fixedPayloadSize) w

omit [ReadoutType T] in
theorem Blank.fileOk (hb : Blank conf s) : FileOk conf s := .inl ⟨hb.file_eq, hb.start_mem⟩

theorem Copied.fileOk {first m w e : ℕ} (hc : Copied conf s first m w e) : FileOk conf s :=
  .inr ⟨first, w, hc.first_lt, hc.start_eq, hc.file_eq⟩

omit [ReadoutType T] in
theorem Whole.fileOk (hw : Whole conf s) : FileOk conf s :=
  hw.imp_right fun ⟨first, _, hfirst, _, _, hstart, hfile⟩ => ⟨first, _, hfirst, hstart, hfile⟩

theorem Ready.fileOk (hr : Ready conf base s) : FileOk conf s := by
  rcases hr with ⟨-, hblank⟩ | ⟨first, m, w, e, hc, -⟩
  · exact hblank.fileOk
  · exact hc.fileOk

theorem PhaseOk.fileOk {r : ZeroCopyRecorder} (hr : PhaseOk conf base s r) : FileOk conf s := by
  cases r with
  | idle | finishing => exact Whole.fileOk hr
  | started => exact Blank.fileOk hr
  | outer | waiting => exact Ready.fileOk hr
  | checking => exact hr.1.fileOk
  | endLoading | endLoaded currentWrite | chunks currentEnd considered
  | updating currentEnd considered | copying currentEnd considered source left target
  | completing source left =>
    obtain ⟨first, m, w, e, hc, -⟩ := hr
    exact hc.fileOk
  | _ => exact hr.1.fileOk

omit [ReadoutType T] in
theorem FileOk.unbegun (hf : FileOk conf s) (hstart : s.startElement = none) : s.file = [] := by
  rcases hf with ⟨hfile, -⟩ | ⟨first, w, hfirst, hsome, -⟩
  · exact hfile
  · rw [hstart] at hsome
    cases hsome

variable (hpayload : 0 < conf.fixedPayloadSize)
  (hraw : ∀ x, (conf.rawBytes x).length = conf.fixedPayloadSize)
include hraw

omit [ReadoutType T] in
theorem stream_drop {first : ℕ} (hfirst : first < s.accepted.length) :
    (s.stream conf).drop (first * conf.fixedPayloadSize) =
      (s.accepted[first] :: s.accepted.drop (first + 1)).flatMap conf.rawBytes := by
  rw [stream, drop_flatMap hraw, List.drop_eq_getElem_cons hfirst]

omit [ReadoutType T] in
theorem FileOk.image (hf : FileOk conf s) {x : T} (hx : s.startElement = some x) :
    ∃ before after, s.accepted = before ++ x :: after ∧
      s.file <+: (x :: after).flatMap conf.rawBytes := by
  rcases hf with ⟨hfile, hmem⟩ | ⟨first, w, hfirst, hstart, hfile⟩
  · obtain ⟨before, after, haccepted⟩ := List.append_of_mem (hmem x hx)
    exact ⟨before, after, haccepted, hfile ▸ List.nil_prefix⟩
  · rw [hx] at hstart
    obtain rfl := Option.some.inj hstart
    refine ⟨s.accepted.take first, s.accepted.drop (first + 1), ?_, ?_⟩
    · rw [← List.drop_eq_getElem_cons hfirst, List.take_append_drop]
    · rw [hfile, ← stream_drop hraw hfirst]
      exact stretch_prefix_drop

omit [ReadoutType T] in
theorem Whole.image (hw : Whole conf s) {x : T} (hx : s.startElement = some x) :
    ∃ before after, s.accepted = before ++ x :: after ∧
      ∃ k, s.file = ((x :: after).take k).flatMap conf.rawBytes := by
  rcases hw with ⟨hfile, hmem⟩ | ⟨first, k, hfirst, hk, hlen, hstart, hfile⟩
  · obtain ⟨before, after, haccepted⟩ := List.append_of_mem (hmem x hx)
    exact ⟨before, after, haccepted, 0, hfile⟩
  · rw [hx] at hstart
    obtain rfl := Option.some.inj hstart
    refine ⟨s.accepted.take first, s.accepted.drop (first + 1), ?_, k - first, ?_⟩
    · rw [← List.drop_eq_getElem_cons hfirst, List.take_append_drop]
    · rw [hfile, stretch, stream, take_flatMap hraw, drop_flatMap hraw, List.drop_take,
        List.drop_eq_getElem_cons hfirst]

include hpayload

theorem Imaging.recordsImage (h : Imaging conf base s) : RecordsImage conf s := by
  have hphase := h.phase
  refine ⟨hphase.fileOk.unbegun, fun x hx => ?_, fun source left hr => ?_⟩
  · by_cases hidle : s.thread = .idle
    · rw [hidle] at hphase
      obtain ⟨before, after, haccepted, k, hfile⟩ := Whole.image hraw hphase hx
      refine ⟨before, after, haccepted, ?_, fun _ => ⟨k, hfile⟩⟩
      rw [hfile]
      exact prefix_flatMap (List.take_prefix _ _)
    · obtain ⟨before, after, haccepted, hpre⟩ := hphase.fileOk.image hraw hx
      exact ⟨before, after, haccepted, hpre, fun h => absurd h hidle⟩
  · have hcopying : ∃ first m w e, Copied conf s first m w e ∧
        Copying conf base s source (left + 1) w e := by
      rcases hr with ⟨currentEnd, considered, target, hr⟩ | hr
      · rw [hr] at hphase
        obtain ⟨first, m, w, e, hc, -, hcopying, -⟩ := hphase
        exact ⟨first, m, w, e, hc, hcopying⟩
      · rw [hr] at hphase
        obtain ⟨first, m, w, e, hc, hcopying, -⟩ := hphase
        exact ⟨first, m, w, e, hc, hcopying⟩
    obtain ⟨first, m, w, e, hc, hcopying⟩ := hcopying
    have hw : w < e * conf.fixedPayloadSize := by
      have := hcopying.le_end
      omega
    obtain ⟨⟨x, hrecords, hmemory⟩, -⟩ := hc.byteAt h.positions hpayload hraw hw
    rw [← hcopying.source_eq (Nat.succ_pos left)] at hrecords hmemory
    have hmem := (h.positions.represents.mem_iff x).mpr ⟨_, hrecords⟩
    exact ⟨x, List.mem_of_mem_drop hmem, hrecords, hmemory⟩

end Property

section Run
variable {q : IterableQueueModel T} {xs : List T}

theorem imaging_init (hq : Represents q xs) (hsorted : StrictlyIncreasing tsNat xs) :
    Imaging conf q.readIndex (init q xs) :=
  ⟨positions_init hq, hsorted, .inl ⟨rfl, nofun⟩⟩

/-- Whatever the producer and the cleanup do in between, and wherever the ring wraps: the file is
an image of consecutive accepted elements. -/
theorem run_recordsImage (hpayload : 0 < conf.fixedPayloadSize)
    (hraw : ∀ x, (conf.rawBytes x).length = conf.fixedPayloadSize) (hq : Represents q xs)
    (hsorted : StrictlyIncreasing tsNat xs) (handler : RequestHandler)
    (as : List (ZeroCopyAction T)) (s : ZeroCopySystem T)
    (hincreasing : Execution.StepsMeet (step conf handler) PayloadsIncreasing (init q xs) as)
    (hfound : Execution.StepsMeet (step conf handler) StartFound (init q xs) as)
    (hbegun : Execution.StepsMeet (step conf handler) BegunOnce (init q xs) as)
    (hreadable : Execution.StepsMeet (step conf handler) EndReadable (init q xs) as)
    (hrun : Execution.run (step conf handler) (init q xs) as = some s) : RecordsImage conf s := by
  have h : Imaging conf q.readIndex s := Execution.run_invariant_of_stepsMeet
    (fun _ _ _ h hcond hstep =>
      h.step hpayload hraw hcond.1 hcond.2.1 hcond.2.2.1 hcond.2.2.2 hstep)
    (imaging_init hq hsorted) (hincreasing.and (hfound.and (hbegun.and hreadable))) hrun
  exact h.recordsImage hpayload hraw

end Run

section Examples

instance (s : ZeroCopySystem T) : DecidablePred (PayloadsIncreasing s)
  | .write x => inferInstanceAs (Decidable (AcceptedIncreasing s.toRecordingSystem (.write x)))
  | .cleanupCheck | .cleanup | .record _ | .recorder | .timeUp => isTrue trivial

instance (s : ZeroCopySystem T) : DecidablePred (BegunOnce s)
  | .recorder => inferInstanceAs
      (Decidable (s.thread = .checking → s.nextTimestampToRecord = 0 → s.file = []))
  | .write _ | .cleanupCheck | .cleanup | .record _ | .timeUp => isTrue trivial

instance (s : ZeroCopySystem T) : DecidablePred (StartFound s)
  | .recorder => inferInstanceAs (Decidable (s.searchGood = true))
  | .write _ | .cleanupCheck | .cleanup | .record _ | .timeUp => isTrue trivial

instance (s : ZeroCopySystem T) : DecidablePred (EndReadable s)
  | .recorder => inferInstanceAs (Decidable (s.backReadable = true))
  | .write _ | .cleanupCheck | .cleanup | .record _ | .timeUp => isTrue trivial

def pairConf (chunkSize : ℕ) : ZeroCopyConf (Chunk 1 10) where
  startOfBuffer := 4096
  alignmentSize := 4
  chunkSize := chunkSize
  fixedPayloadSize := 2
  rawBytes := fun x => [1, x.timestamp.toUInt8]

def eagerHandler : RequestHandler := ⟨1 / 4, 1, 1, 4, 0, true, "out.bin", 3, none⟩

def wrappedInit : ZeroCopySystem (Chunk 1 10) :=
  init (positioned 4 2 3 fun i => ⟨100 + 10 * i.toUInt64⟩) [⟨100⟩, ⟨110⟩, ⟨120⟩]

/-- Two elements are recorded in chunks of three bytes, and popped in the middle of the pass. -/
def wrappedActions : List (ZeroCopyAction (Chunk 1 10)) :=
  [.record 1] ++ List.replicate 20 .recorder ++ [.cleanupCheck] ++ List.replicate 10 .cleanup ++
    [.write ⟨130⟩] ++ List.replicate 197 .recorder ++ [.timeUp, .recorder]

def wrappedState : ZeroCopySystem (Chunk 1 10) :=
  (Execution.run (step (pairConf 3) eagerHandler) wrappedInit wrappedActions).get
    (by decide +kernel)

theorem run_recordsImage_wrapped :
    wrappedState.file = [1, 100, 1, 110] ∧ wrappedState.removed = 2 ∧
      RecordsImage (pairConf 3) wrappedState :=
  ⟨by decide +kernel, by decide +kernel,
    run_recordsImage (by decide) (fun _ => rfl)
      (represents_positioned _ (by decide) (by decide) (by decide) (by decide))
      (by unfold StrictlyIncreasing; decide) eagerHandler wrappedActions wrappedState
      (Execution.stepsMeet_of_checkSteps (fun _ _ => of_decide_eq_true)
        (by decide +kernel : Execution.checkSteps (step (pairConf 3) eagerHandler)
          (fun s a => decide (PayloadsIncreasing s a)) wrappedInit wrappedActions = true))
      (Execution.stepsMeet_of_checkSteps (fun _ _ => of_decide_eq_true)
        (by decide +kernel : Execution.checkSteps (step (pairConf 3) eagerHandler)
          (fun s a => decide (StartFound s a)) wrappedInit wrappedActions = true))
      (Execution.stepsMeet_of_checkSteps (fun _ _ => of_decide_eq_true)
        (by decide +kernel : Execution.checkSteps (step (pairConf 3) eagerHandler)
          (fun s a => decide (BegunOnce s a)) wrappedInit wrappedActions = true))
      (Execution.stepsMeet_of_checkSteps (fun _ _ => of_decide_eq_true)
        (by decide +kernel : Execution.checkSteps (step (pairConf 3) eagerHandler)
          (fun s a => decide (EndReadable s a)) wrappedInit wrappedActions = true))
      (Option.some_get _).symm⟩

def zeroActions : List (ZeroCopyAction (Chunk 1 10)) :=
  [.write ⟨0⟩, .write ⟨10⟩, .record 1] ++ List.replicate 227 .recorder

def zeroState : ZeroCopySystem (Chunk 1 10) :=
  (Execution.run (step (pairConf 1) eagerHandler) (init (fresh _ 4) []) zeroActions).get
    (by decide +kernel)

theorem not_recordsImage_of_zero :
    ¬ ∀ (handler : RequestHandler) (as : List (ZeroCopyAction (Chunk 1 10)))
        (s : ZeroCopySystem (Chunk 1 10)),
        Execution.StepsMeet (step (pairConf 1) handler) PayloadsIncreasing
          (init (fresh _ 4) []) as →
        Execution.StepsMeet (step (pairConf 1) handler) StartFound (init (fresh _ 4) []) as →
        Execution.run (step (pairConf 1) handler) (init (fresh _ 4) []) as = some s →
        RecordsImage (pairConf 1) s := by
  intro h
  have himage := (h eagerHandler zeroActions zeroState
    (Execution.stepsMeet_of_checkSteps (fun _ _ => of_decide_eq_true)
      (by decide +kernel : Execution.checkSteps (step (pairConf 1) eagerHandler)
        (fun s a => decide (PayloadsIncreasing s a)) _ _ = true))
    (Execution.stepsMeet_of_checkSteps (fun _ _ => of_decide_eq_true)
      (by decide +kernel : Execution.checkSteps (step (pairConf 1) eagerHandler)
        (fun s a => decide (StartFound s a)) _ _ = true))
    (Option.some_get _).symm).image ⟨0⟩ (by decide +kernel)
  obtain ⟨before, after, -, hpre, -⟩ := himage
  -- the first byte is there twice
  have hfile : zeroState.file = [1, 1] := by decide +kernel
  rw [hfile, List.flatMap_cons] at hpre
  have hsecond := hpre.getElem (i := 1) (by decide)
  exact absurd hsecond (by simp [pairConf])

end Examples
end DataHandling.ZeroCopySystem

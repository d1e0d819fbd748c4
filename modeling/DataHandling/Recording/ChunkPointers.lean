import DataHandling.Recording.Chunks

/-! The pointers of a zero-copy recording beside the other threads, and what the recorder copies
next: bytes of the stream that lie before the end pointer and before the end of the buffer. -/

namespace DataHandling.ZeroCopySystem
open Cyclic Ordered ReadoutType IterableQueueModel RecordingSystem Stretch

variable {T : Type} [ReadoutType T] {conf : ZeroCopyConf T} {base : ℕ} {s : ZeroCopySystem T}

section Others
variable {s' : ZeroCopySystem T} (hraw : ∀ x, (conf.rawBytes x).length = conf.fixedPayloadSize)

structure Beside (s s' : ZeroCopySystem T) : Prop where
  shared : Aside s.toRecordingSystem s'.toRecordingSystem
  file_eq : s'.file = s.file
  pointer_eq : s'.writePointer = s.writePointer
  start_eq : s'.startElement = s.startElement

theorem beside_shared {b : RecordingSystem T} (h : Aside s.toRecordingSystem b) :
    Beside s { s with toRecordingSystem := b } := ⟨h, rfl, rfl, rfl⟩

theorem beside_goTo (r : ZeroCopyRecorder) : Beside s (s.goTo r) :=
  ⟨⟨rfl, rfl, List.prefix_rfl, fun _ h => h, fun h => ⟨h, rfl⟩⟩, rfl, rfl, rfl⟩

variable (h : Beside s s')
include h

theorem Beside.slotOf_eq (p : ℕ) :
    slotOf base s'.toRecordingSystem p = slotOf base s.toRecordingSystem p := by
  rw [slotOf, slotOf, h.shared.size_eq]

theorem Beside.offsetOf_eq (w : ℕ) : offsetOf base s'.toRecordingSystem conf.fixedPayloadSize w =
    offsetOf base s.toRecordingSystem conf.fixedPayloadSize w := by
  rw [offsetOf, offsetOf, h.shared.size_eq]

theorem Beside.endOfBuffer_eq : s'.endOfBuffer conf = s.endOfBuffer conf := by
  rw [endOfBuffer, endOfBuffer, h.shared.size_eq]

theorem Beside.getElem {p : ℕ} (hp : p < s.accepted.length) :
    ∃ hp' : p < s'.accepted.length, s'.accepted[p] = s.accepted[p] :=
  ⟨hp.trans_le h.shared.accepted.length_le, (h.shared.accepted.getElem hp).symm⟩

theorem Beside.pointsTo {w : ℕ} (hw : PointsTo conf base s w) : PointsTo conf base s' w := by
  rw [PointsTo, h.pointer_eq, h.offsetOf_eq]
  exact hw

theorem Beside.endsAt {currentEnd : ℤ} {e : ℕ} (hend : EndsAt conf base s currentEnd e) :
    EndsAt conf base s' currentEnd e := by
  rw [EndsAt, h.slotOf_eq]
  exact hend

theorem Beside.start_mem (hstart : ∀ x, s.startElement = some x → x ∈ s.accepted) :
    ∀ x, s'.startElement = some x → x ∈ s'.accepted := by
  rw [h.start_eq]
  exact fun x hx => h.shared.accepted.subset (hstart x hx)

theorem Beside.blank (hb : Blank conf s) : Blank conf s' :=
  ⟨h.file_eq.trans hb.file_eq, h.pointer_eq ▸ hb.aligned, h.start_mem hb.start_mem⟩

theorem Beside.seeks {begin : ℕ} (hs : Seeks conf base s begin) : Seeks conf base s' begin := by
  obtain ⟨hblank, m, p, hm, hmp, hp, rfl⟩ := hs
  exact ⟨h.blank hblank, m, p, h.shared.held m hm, hmp,
    hp.trans_le h.shared.accepted.length_le, (h.slotOf_eq p).symm⟩

theorem Beside.copying {source left w e : ℕ} (hc : Copying conf base s source left w e) :
    Copying conf base s' source left w e := by
  refine ⟨fun hleft => ?_, hc.le_end, ?_⟩
  · rw [h.offsetOf_eq]
    exact hc.source_eq hleft
  · rw [h.offsetOf_eq, h.endOfBuffer_eq]
    exact hc.inside

include hraw

theorem Beside.stretch_eq {a w : ℕ} (hw : w ≤ s.accepted.length * conf.fixedPayloadSize) :
    stretch (s'.stream conf) a w = stretch (s.stream conf) a w := by
  refine stretch_of_prefix (prefix_flatMap h.shared.accepted) ?_
  rw [stream, length_flatMap hraw]
  exact hw

theorem Beside.copied {first m w e : ℕ} (hc : Copied conf s first m w e) :
    Copied conf s' first m w e := by
  obtain ⟨hfirst, hstart⟩ := h.getElem hc.first_lt
  have hw : w ≤ s.accepted.length * conf.fixedPayloadSize :=
    hc.le_end.trans (Nat.mul_le_mul_right _ hc.end_lt.le)
  refine ⟨hfirst, ?_, hc.first_le, ?_, h.shared.held m hc.held, hc.held_le,
    hc.end_lt.trans_le h.shared.accepted.length_le, hc.le_end⟩
  · rw [h.start_eq, hstart]
    exact hc.start_eq
  · rw [h.file_eq, h.stretch_eq hraw hw]
    exact hc.file_eq

theorem Beside.whole (hw : Whole conf s) : Whole conf s' := by
  rcases hw with ⟨hfile, hstart⟩ | ⟨first, k, hfirst, hk, hlen, hstart, hfile⟩
  · exact .inl ⟨h.file_eq.trans hfile, h.start_mem hstart⟩
  · obtain ⟨hfirst', hstart'⟩ := h.getElem hfirst
    refine .inr ⟨first, k, hfirst', hk, hlen.trans h.shared.accepted.length_le, ?_, ?_⟩
    · rw [h.start_eq, hstart']
      exact hstart
    · rw [h.file_eq, h.stretch_eq hraw (Nat.mul_le_mul_right _ hlen)]
      exact hfile

theorem Beside.ready (hr : Ready conf base s) : Ready conf base s' := by
  rcases hr with ⟨hnext, hblank⟩ | ⟨first, m, w, e, hc, hw⟩
  · exact .inl ⟨h.shared.next_eq.trans hnext, h.blank hblank⟩
  · exact .inr ⟨first, m, w, e, h.copied hraw hc, h.pointsTo hw⟩

theorem Beside.phaseOk {r : ZeroCopyRecorder} (hr : PhaseOk conf base s r) :
    PhaseOk conf base s' r := by
  have hlen := h.shared.accepted.length_le
  have hslot : ∀ p, slotOf base s'.toRecordingSystem p = slotOf base s.toRecordingSystem p :=
    h.slotOf_eq
  cases r with
  | idle | finishing => exact h.whole hraw hr
  | started => exact h.blank hr
  | outer | waiting => exact h.ready hraw hr
  | checking =>
    exact ⟨h.ready hraw hr.1,
      fun hnext => (h.shared.still (hr.2 (h.shared.next_eq.symm.trans hnext))).1⟩
  | beginning => exact ⟨h.blank hr.1, (h.shared.still hr.2).1⟩
  | beginLoaded currentRead =>
    obtain ⟨hblank, hstill, rfl⟩ := hr
    obtain ⟨hstill', hremoved⟩ := h.shared.still hstill
    exact ⟨h.blank hblank, hstill', by rw [hslot, hremoved]⟩
  | beginFound begin =>
    obtain ⟨hblank, hstill, hlt, rfl⟩ := hr
    obtain ⟨hstill', hremoved⟩ := h.shared.still hstill
    exact ⟨h.blank hblank, hstill', hremoved ▸ hlt.trans_le hlen, by rw [hslot, hremoved]⟩
  | aligning begin | advancing begin | advancingLoaded begin currentRead => exact h.seeks hr
  | stepped begin | steppedLoaded begin currentRead =>
    obtain ⟨hblank, m, p, hm, hmp, hp, rfl⟩ := hr
    exact ⟨h.blank hblank, m, p, h.shared.held m hm, hmp, hp.trans hlen, (hslot p).symm⟩
  | tested begin | testedLoaded begin currentRead =>
    exact ⟨h.blank hr.1, hr.2.imp_right h.seeks⟩
  | endLoading =>
    obtain ⟨first, m, w, e, hc, hw⟩ := hr
    exact ⟨first, m, w, e, h.copied hraw hc, h.pointsTo hw⟩
  | endLoaded currentWrite =>
    obtain ⟨first, m, w, e, hc, hw, rfl⟩ := hr
    exact ⟨first, m, w, e, h.copied hraw hc, h.pointsTo hw, (hslot _).symm⟩
  | chunks currentEnd considered | updating currentEnd considered =>
    obtain ⟨first, m, w, e, hc, hw, hend⟩ := hr
    exact ⟨first, m, w, e, h.copied hraw hc, h.pointsTo hw, h.endsAt hend⟩
  | copying currentEnd considered source left target =>
    obtain ⟨first, m, w, e, hc, hend, hcopying, htarget⟩ := hr
    refine ⟨first, m, w, e, h.copied hraw hc, h.endsAt hend, h.copying hcopying, ?_⟩
    rw [h.offsetOf_eq, h.endOfBuffer_eq]
    exact htarget
  | completing source left =>
    obtain ⟨first, m, w, e, hc, hcopying, hwhole⟩ := hr
    exact ⟨first, m, w, e, h.copied hraw hc, h.copying hcopying, hwhole⟩

end Others

section Pointers
variable (h : Positions base s.toRecordingSystem) (hpayload : 0 < conf.fixedPayloadSize)
  (hraw : ∀ x, (conf.rawBytes x).length = conf.fixedPayloadSize)
include h

omit [ReadoutType T] in
theorem slotOf_succ (p : ℕ) : slotOf base s.toRecordingSystem (p + 1) =
    if slotOf base s.toRecordingSystem p + 1 = s.queue.size then 0
    else slotOf base s.toRecordingSystem p + 1 := by
  have hlt := h.slotOf_lt p
  have hsize := h.represents.size_lt
  rw [← h.nextRecord_eq p, nextRecord, MachineInt.u32_of_lt (by omega)]

omit [ReadoutType T] in
theorem backPointer_eq {e : ℕ} (hremoved : s.removed ≤ e) (he : e < s.accepted.length)
    (hlast : slotOf base s.toRecordingSystem e < 2147483648) :
    EndsAt conf base s (s.backPointer conf (slotOf base s.toRecordingSystem (e + 1))) e := by
  have hsize := h.represents.size_lt
  have hlen := h.length_lt
  have hlt := h.slotOf_lt e
  have hne : slotOf base s.toRecordingSystem (e + 1) ≠ s.queue.readIndex := by
    rw [h.readIndex_slotOf]
    intro heq
    have := slotOf_inj (by omega : s.removed ≤ e + 1) (by omega) heq.symm
    omega
  have hcurrentLast : IterableQueueModel.currentLast
      { s.queue with writeIndex := slotOf base s.toRecordingSystem (e + 1) } =
      (slotOf base s.toRecordingSystem e : ℤ) := currentLast_eq (slotOf_succ h e) hlast
  rw [EndsAt, backPointer, if_neg hne, hcurrentLast, Nat.cast_mul]

include hpayload

theorem phaseOk_considerChunk {first m w e : ℕ} {currentEnd : ℤ} {considered : ℕ}
    (hc : Copied conf s first m w e) (hw : PointsTo conf base s w)
    (hend : EndsAt conf base s currentEnd e) :
    PhaseOk conf base s (s.considerChunk conf currentEnd considered
      (offsetOf base s.toRecordingSystem conf.fixedPayloadSize w)) := by
  have hlt := h.offsetOf_lt hpayload w
  have hpos := h.endOfBuffer_pos hpayload
  have hlen := h.length_lt
  -- the distance to the end pointer is less than one turn
  obtain ⟨d, hd⟩ := Nat.exists_eq_add_of_le hc.le_end
  have hturn : d < s.queue.size * conf.fixedPayloadSize := by
    have hem : e < m + s.queue.size := by
      have := hc.held.removed_le
      have := hc.end_lt
      omega
    have hmul : e * conf.fixedPayloadSize < (m + s.queue.size) * conf.fixedPayloadSize :=
      Nat.mul_lt_mul_of_pos_right hem hpayload
    rw [Nat.add_mul] at hmul
    have := hc.held_le
    omega
  have hstep : ∀ k, offsetOf base s.toRecordingSystem conf.fixedPayloadSize (w + k) =
      (offsetOf base s.toRecordingSystem conf.fixedPayloadSize w + k) %
        (s.queue.size * conf.fixedPayloadSize) := offsetOf_add w
  have hE : currentEnd = ((offsetOf base s.toRecordingSystem conf.fixedPayloadSize
      (e * conf.fixedPayloadSize) : ℕ) : ℤ) := by
    rw [offsetOf_mul]
    exact hend
  rw [hd, hstep d] at hE
  have hcases := add_mod_cases hlt hturn
  rw [considerChunk]
  split_ifs with hbefore hbehind hinside
  · -- a whole chunk, the end pointer ahead
    have hinside : offsetOf base s.toRecordingSystem conf.fixedPayloadSize w + conf.chunkSize <
        s.queue.size * conf.fixedPayloadSize ∧ conf.chunkSize < d := by omega
    refine ⟨first, m, w, e, hc, hend, ⟨fun _ => rfl, by omega, hinside.1.le⟩, ?_⟩
    rw [hstep, Nat.mod_eq_of_lt hinside.1]
    exact if_neg hinside.1.ne
  · -- a whole chunk, the end pointer behind the end of the buffer
    have hle : w + conf.chunkSize ≤ e * conf.fixedPayloadSize := by
      unfold endOfBuffer at hinside
      omega
    refine ⟨first, m, w, e, hc, hend, ⟨fun _ => rfl, hle, hinside.le⟩, ?_⟩
    rw [hstep, if_neg hinside.ne]
    exact (Nat.mod_eq_of_lt hinside).symm
  · -- the last bit of the buffer
    have hadd : offsetOf base s.toRecordingSystem conf.fixedPayloadSize w +
        (s.endOfBuffer conf - offsetOf base s.toRecordingSystem conf.fixedPayloadSize w) =
        s.endOfBuffer conf := Nat.add_sub_cancel' hlt.le
    refine ⟨first, m, w, e, hc, hend, ⟨fun _ => rfl, ?_, hadd.le⟩, ?_⟩
    · unfold endOfBuffer at hadd ⊢
      omega
    · rw [hstep, hadd]
      exact (if_neg hpos.ne).trans (Nat.mod_self _).symm
  · exact ⟨first, m, w, e, hc, hw, hend⟩

include hraw

theorem Copied.byteAt {first m w e : ℕ} (hc : Copied conf s first m w e)
    (hw : w < e * conf.fixedPayloadSize) :
    let offset := offsetOf base s.toRecordingSystem conf.fixedPayloadSize w
    (∃ x, s.queue.records (offset / conf.fixedPayloadSize) = some x ∧
        s.memory (offset / conf.fixedPayloadSize) = some x) ∧
      ∃ byte, s.byteAt conf offset = some byte ∧ (s.stream conf)[w]? = some byte := by
  intro offset
  have hslot : offset / conf.fixedPayloadSize =
      slotOf base s.toRecordingSystem (w / conf.fixedPayloadSize) := offsetOf_div hpayload w
  have hmod : offset % conf.fixedPayloadSize = w % conf.fixedPayloadSize := offsetOf_mod w
  have hheld : m ≤ w / conf.fixedPayloadSize := (Nat.le_div_iff_mul_le hpayload).mpr hc.held_le
  have hlt : w / conf.fixedPayloadSize < s.accepted.length :=
    (Nat.div_lt_of_lt_mul (by rwa [Nat.mul_comm])).trans hc.end_lt
  have hremoved : s.removed ≤ w / conf.fixedPayloadSize := hc.held.removed_le.trans hheld
  have hrecords := h.records_eq hremoved hlt
  have hmemory := h.memory_slotOf (Nat.le_succ_of_le hremoved) hlt
  rw [← hslot] at hrecords hmemory
  have hbyte : w % conf.fixedPayloadSize <
      (conf.rawBytes s.accepted[w / conf.fixedPayloadSize]).length := by
    rw [hraw]
    exact Nat.mod_lt w hpayload
  refine ⟨⟨_, hrecords, hmemory⟩, (conf.rawBytes
    s.accepted[w / conf.fixedPayloadSize])[w % conf.fixedPayloadSize], ?_, ?_⟩
  · rw [ZeroCopySystem.byteAt, hmemory, hmod, Option.bind_some, List.getElem?_eq_getElem hbyte]
  · rw [stream, getElem?_flatMap hraw hpayload, List.getElem?_eq_getElem hlt, Option.bind_some,
      List.getElem?_eq_getElem hbyte]

omit [ReadoutType T] hraw in
theorem Copying.next {source left w e : ℕ} (hc : Copying conf base s source (left + 1) w e) :
    Copying conf base s (source + 1) left (w + 1) e := by
  have hpos := h.endOfBuffer_pos hpayload
  have hinside := hc.inside
  have hnext : offsetOf base s.toRecordingSystem conf.fixedPayloadSize (w + 1) =
      (offsetOf base s.toRecordingSystem conf.fixedPayloadSize w + 1) %
        (s.queue.size * conf.fixedPayloadSize) := offsetOf_add w 1
  have hlt := h.offsetOf_lt hpayload (w + 1)
  have hend : w + 1 + left ≤ e * conf.fixedPayloadSize := by
    have := hc.le_end
    omega
  rcases Nat.eq_zero_or_pos left with rfl | hleft
  · exact ⟨fun hleft => absurd hleft (Nat.lt_irrefl _), hend, hlt.le⟩
  · have hstep : offsetOf base s.toRecordingSystem conf.fixedPayloadSize (w + 1) =
        offsetOf base s.toRecordingSystem conf.fixedPayloadSize w + 1 := by
      rw [hnext]
      unfold endOfBuffer at hinside
      exact Nat.mod_eq_of_lt (by omega)
    refine ⟨fun _ => ?_, hend, ?_⟩
    · rw [hstep, hc.source_eq (Nat.succ_pos left)]
    · rw [hstep]
      omega

end Pointers
end DataHandling.ZeroCopySystem

import DataHandling.Recording.Recorder

/-! Where the accepted elements stand: the element at position `p` of the acceptance order is
constructed in slot `(base + p) % size`, and its memory stays until the ring has been written
once around. -/

namespace DataHandling.RecordingSystem
open Cyclic Ordered ReadoutType IterableQueueModel

variable {T : Type}

structure Positions (base : ℕ) (s : RecordingSystem T) : Prop where
  represents : Represents s.queue (s.accepted.drop s.removed)
  removed_le : s.removed ≤ s.accepted.length
  readIndex_eq : s.queue.readIndex = (base + s.removed) % s.queue.size
  memory_eq : ∀ p (h : p < s.accepted.length), s.accepted.length ≤ p + s.queue.size →
    s.memory ((base + p) % s.queue.size) = some s.accepted[p]

def slotOf (base : ℕ) (s : RecordingSystem T) (p : ℕ) : ℕ := (base + p) % s.queue.size

section Facts
variable {base : ℕ} {s : RecordingSystem T} (h : Positions base s)
include h

theorem Positions.size_pos : 0 < s.queue.size :=
  Nat.lt_of_lt_of_le Nat.two_pos h.represents.two_le_size

theorem Positions.length_lt : s.accepted.length < s.removed + s.queue.size := by
  have hlen := h.represents.length_lt
  rw [List.length_drop] at hlen
  omega

theorem Positions.slot_eq {i : ℕ} (hi : i < s.queue.size) :
    slot s.queue.size s.queue.readIndex i = slotOf base s (s.removed + i) := by
  rw [h.readIndex_eq, slot_mod h.size_pos hi, slotOf, Nat.add_assoc]

theorem Positions.readIndex_slotOf : s.queue.readIndex = slotOf base s s.removed := h.readIndex_eq

theorem Positions.writeIndex_eq : s.queue.writeIndex = slotOf base s s.accepted.length := by
  have hlen := h.represents.length_lt
  have hle := h.removed_le
  rw [h.represents.write_eq, h.slot_eq hlen, List.length_drop]
  congr 1
  omega

theorem Positions.slotOf_lt (p : ℕ) : slotOf base s p < s.queue.size := Nat.mod_lt _ h.size_pos

theorem Positions.slotOf_ne_endIndex (p : ℕ) : slotOf base s p ≠ endIndex := by
  have hlt := h.slotOf_lt p
  have hsize := h.represents.size_lt
  unfold endIndex MachineInt.u32Max
  omega

omit h in
theorem slotOf_inj {p p' : ℕ} (hpp : p ≤ p') (hp : p' < p + s.queue.size)
    (heq : slotOf base s p = slotOf base s p') : p = p' := by
  have := mod_inj (by omega : base + p ≤ base + p') (by omega) heq
  omega

theorem Positions.nextRecord_eq (p : ℕ) :
    s.queue.nextRecord (slotOf base s p) = slotOf base s (p + 1) := by
  have hlt := h.slotOf_lt p
  have hsize := h.represents.size_lt
  have h2 := h.represents.two_le_size
  rw [nextRecord, MachineInt.u32_of_lt (by omega)]
  have hadd : slotOf base s (p + 1) = (slotOf base s p + 1) % s.queue.size := by
    rw [slotOf, slotOf, Nat.mod_add_mod, Nat.add_assoc]
  rw [hadd]
  split_ifs with hwrap
  · rw [hwrap, Nat.mod_self]
  · rw [Nat.mod_eq_of_lt (by omega)]

theorem Positions.records_eq {p : ℕ} (hremoved : s.removed ≤ p) (hp : p < s.accepted.length) :
    s.queue.records (slotOf base s p) = some s.accepted[p] := by
  have hlen := h.length_lt
  have hstored := h.represents.stored (p - s.removed) (by rw [List.length_drop]; omega)
  rw [h.slot_eq (by omega), List.getElem_drop] at hstored
  simpa only [Nat.add_sub_cancel' hremoved] using hstored

theorem Positions.memory_slotOf {p : ℕ} (hremoved : s.removed ≤ p + 1)
    (hp : p < s.accepted.length) :
    s.memory (slotOf base s p) = some s.accepted[p] := by
  have hlen := h.length_lt
  exact h.memory_eq p hp (by omega)

theorem Positions.slotOf_ne_writeIndex {p : ℕ} (hremoved : s.removed ≤ p + 1)
    (hp : p < s.accepted.length) (hroom : s.accepted.length + 1 < s.removed + s.queue.size) :
    slotOf base s p ≠ s.queue.writeIndex := by
  rw [h.writeIndex_eq]
  intro heq
  have := slotOf_inj (Nat.le_of_lt hp) (by omega) heq
  omega

theorem Positions.goodOf_slotOf {p : ℕ} (hremoved : s.removed ≤ p)
    (hp : p < s.accepted.length) :
    goodOf s.queue s.queue.readIndex (slotOf base s p) = true := by
  have hlen := h.length_lt
  have hgood := h.represents.good_slot (k := p - s.removed) (by rw [List.length_drop]; omega)
  rw [h.slot_eq (by omega), Nat.add_sub_cancel' hremoved] at hgood
  exact hgood

theorem Positions.front_eq (hlt : s.removed < s.accepted.length) :
    s.queue.front.bind s.queue.records = some s.accepted[s.removed] := by
  rw [h.represents.front_records, List.head?_drop, List.getElem?_eq_getElem hlt]

theorem Positions.lt_of_front {x : T} (hx : s.queue.front.bind s.queue.records = some x) :
    ∃ hlt : s.removed < s.accepted.length, x = s.accepted[s.removed] := by
  rw [h.represents.front_records, List.head?_drop] at hx
  obtain ⟨hlt, heq⟩ := List.getElem?_eq_some_iff.mp hx
  exact ⟨hlt, heq.symm⟩

theorem Positions.congr {s' : RecordingSystem T} (hqueue : s'.queue = s.queue)
    (hmemory : s'.memory = s.memory) (haccepted : s'.accepted = s.accepted)
    (hremoved : s'.removed = s.removed) : Positions base s' := by
  obtain ⟨queue, memory, _, _, _, _, _, _, _, _, accepted, removed⟩ := s'
  obtain rfl : queue = s.queue := hqueue
  obtain rfl : memory = s.memory := hmemory
  obtain rfl : accepted = s.accepted := haccepted
  obtain rfl : removed = s.removed := hremoved
  exact ⟨h.represents, h.removed_le, h.readIndex_eq, h.memory_eq⟩

theorem Positions.write_eq (x : T) :
    s.write x = if s.accepted.length + 1 < s.removed + s.queue.size then
      { s with
        queue := s.queue.placeBack x
        memory := Function.update s.memory s.queue.writeIndex (some x)
        accepted := s.accepted ++ [x] }
    else { s with queue := s.queue.overflow } := by
  have hle := h.removed_le
  have hroom : (s.accepted.drop s.removed).length + 1 < s.queue.size ↔
      s.accepted.length + 1 < s.removed + s.queue.size := by
    rw [List.length_drop]
    omega
  rw [RecordingSystem.write, h.represents.write_eq_ite]
  simp only [hroom]
  split_ifs with h1 h2 h2
  · rfl
  · exact absurd rfl h2
  · cases h2
  · rfl

theorem Positions.write (x : T) : Positions base (s.write x) := by
  rw [h.write_eq]
  split_ifs with hroom
  · have hdrop : (s.accepted ++ [x]).drop s.removed = s.accepted.drop s.removed ++ [x] :=
      List.drop_append_of_le_length h.removed_le
    have hle := h.removed_le
    have hstored : (s.accepted.drop s.removed).length + 1 < s.queue.size := by
      rw [List.length_drop]
      omega
    have hlength : (s.accepted ++ [x]).length = s.accepted.length + 1 := List.length_append
    refine ⟨?_, ?_, h.readIndex_eq, fun p hp hturn => ?_⟩
    · dsimp only
      rw [hdrop]
      exact h.represents.placeBack x hstored
    · exact Nat.le_trans hle (hlength ▸ Nat.le_succ _)
    · dsimp only [placeBack_size] at hp hturn ⊢
      rw [hlength] at hp hturn
      by_cases hold : p < s.accepted.length
      · have hslot : (base + p) % s.queue.size ≠ s.queue.writeIndex := by
          rw [h.writeIndex_eq]
          intro heq
          have := slotOf_inj (Nat.le_of_lt hold) (by omega) heq
          omega
        rw [Function.update_of_ne hslot, List.getElem_append_left hold]
        exact h.memory_eq p hold (by omega)
      · obtain rfl : p = s.accepted.length := by omega
        have hslot : (base + s.accepted.length) % s.queue.size = s.queue.writeIndex :=
          h.writeIndex_eq.symm
        rw [hslot, Function.update_self, List.getElem_append_right (Nat.le_refl _)]
        simp
  · exact ⟨h.represents.overflow, h.removed_le, h.readIndex_eq, h.memory_eq⟩

theorem Positions.pop {s' : RecordingSystem T} (hpop : s.queue.popFront = some s'.queue)
    (hmemory : s'.memory = s.memory) (haccepted : s'.accepted = s.accepted)
    (hremoved : s'.removed = s.removed + 1) :
    Positions base s' ∧ s.removed < s.accepted.length := by
  obtain ⟨queue, memory, _, _, _, _, _, _, _, _, accepted, removed⟩ := s'
  obtain rfl : memory = s.memory := hmemory
  obtain rfl : accepted = s.accepted := haccepted
  obtain rfl : removed = s.removed + 1 := hremoved
  dsimp only at hpop
  have hlt : s.removed < s.accepted.length := by
    by_contra hge
    have hnil : s.accepted.drop s.removed = [] := List.drop_eq_nil_of_le (Nat.not_lt.mp hge)
    have hempty := h.represents.readIndex_eq_writeIndex_iff.mpr hnil
    rw [popFront, if_neg (not_not.mpr hempty)] at hpop
    cases hpop
  have hstored := h.represents
  rw [List.drop_eq_getElem_cons hlt] at hstored
  rw [hstored.popFront_eq (List.cons_ne_nil _ _)] at hpop
  obtain rfl := Option.some.inj hpop
  refine ⟨⟨hstored.dropFront, hlt, ?_, h.memory_eq⟩, hlt⟩
  have hnext := h.nextRecord_eq s.removed
  rw [← h.readIndex_slotOf] at hnext
  exact hnext

end Facts

theorem positions_init {q : IterableQueueModel T} {xs : List T} (hq : Represents q xs) :
    Positions q.readIndex (init q xs) where
  represents := hq
  removed_le := Nat.zero_le _
  readIndex_eq := (Nat.mod_eq_of_lt hq.read_lt).symm
  memory_eq := by
    intro p hp _
    have hlen := hq.length_lt
    have hp' : p < xs.length := hp
    have hslot : slot q.size (q.readIndex % q.size) p = (q.readIndex + p) % q.size :=
      slot_mod (Nat.zero_lt_of_lt hq.read_lt) (Nat.lt_trans hp' hlen)
    rw [Nat.mod_eq_of_lt hq.read_lt] at hslot
    change q.records ((q.readIndex + p) % q.size) = _
    rw [← hslot]
    exact hq.stored p hp'

theorem goodOf_endIndex (q : IterableQueueModel T) (currentRead : ℕ) :
    goodOf q currentRead endIndex = false := good_endIndex _

theorem goodOf_writeIndex (q : IterableQueueModel T) (currentRead : ℕ) :
    goodOf q currentRead q.writeIndex = false := by
  simp [goodOf, good]

section Search
variable [ReadoutType T] {base : ℕ} {s : RecordingSystem T}

def elementToSearch (s : RecordingSystem T) : T := setTimestamp valueInit s.nextTimestampToRecord

theorem tsNat_elementToSearch (hset : ∀ (x : T) t, getTimestamp (setTimestamp x t) = t)
    (s : RecordingSystem T) : tsNat s.elementToSearch = s.nextTimestampToRecord.toNat := by
  rw [tsNat, elementToSearch, hset]

variable (h : Positions base s)
include h

theorem Positions.search_of_empty (element : T) (hempty : s.removed = s.accepted.length) :
    BinarySearchQueueModel.search s.queue element = some endIndex := by
  have hnil : s.accepted.drop s.removed = [] := List.drop_eq_nil_of_le hempty.ge
  rw [BinarySearchQueueModel.search,
    if_pos (h.represents.readIndex_eq_writeIndex_iff.mpr hnil)]

variable (horder : TimestampConsistent T) (hsorted : StrictlyIncreasing tsNat s.accepted)
  {element : T} (hlt : s.removed < s.accepted.length)
include horder hsorted hlt

theorem Positions.search_of_less (hless : lt element s.accepted[s.removed] = true) :
    BinarySearchQueueModel.search s.queue element = some endIndex := by
  have hne : s.accepted.drop s.removed ≠ [] := List.drop_eq_nil_iff.not.mpr (Nat.not_le.mpr hlt)
  rw [BinarySearchQueueModel.search_eq h.represents horder
    (hsorted.sublist (List.drop_sublist _ _)) hne, List.head_drop, if_pos hless]

/-- Unless the front is above it, the search ends at the first accepted element that is not below
the searched one, removed or not. -/
theorem Positions.search_of_not_less (hless : lt element s.accepted[s.removed] = false) :
    s.removed ≤ Ordered.lowerBound tsNat s.accepted (tsNat element) ∧
      BinarySearchQueueModel.search s.queue element =
        some (slotOf base s (Ordered.lowerBound tsNat s.accepted (tsNat element))) := by
  have hne : s.accepted.drop s.removed ≠ [] := List.drop_eq_nil_iff.not.mpr (Nat.not_le.mpr hlt)
  -- everything removed lies before the front
  have hremoved : s.removed ≤ Ordered.lowerBound tsNat s.accepted (tsNat element) := by
    refine le_lowerBound_of_forall h.removed_le fun i hi hlen => ?_
    exact (hsorted.key_lt hi hlt).trans_le (horder.le_of_lt_eq_false hless)
  have hle : Ordered.lowerBound tsNat s.accepted (tsNat element) ≤ s.accepted.length :=
    lowerBound_le_length
  have hlen := h.length_lt
  refine ⟨hremoved, ?_⟩
  rw [BinarySearchQueueModel.search_eq h.represents horder
    (hsorted.sublist (List.drop_sublist _ _)) hne, List.head_drop, hless,
    if_neg Bool.false_ne_true, lowerBound_drop hremoved, h.slot_eq (by omega),
    Nat.add_sub_cancel' hremoved]

end Search

section Steps
variable {handler : RequestHandler} {base : ℕ} {s s' : RecordingSystem T}

theorem cleanupCheck_cases (hstep : s.cleanupCheck handler = some s') :
    s.cleaner = .idle ∧
      (s' = s ∨ s' = { s with cleanupRequested := true, cleaner := .waiting }) := by
  unfold cleanupCheck at hstep
  split at hstep
  · next hc =>
    split_ifs at hstep
    · exact ⟨hc, .inr (Option.some.inj hstep).symm⟩
    · exact ⟨hc, .inl (Option.some.inj hstep).symm⟩
  · cases hstep

theorem record_cases (hstep : s.record handler = some s') :
    s' = s ∨ (s.recorder = .idle ∧ s' = { s with recording := true, recorder := .started }) := by
  unfold RecordingSystem.record at hstep
  split_ifs at hstep
  · exact .inl (Option.some.inj hstep).symm
  · split at hstep
    · next hr => exact .inr ⟨hr, (Option.some.inj hstep).symm⟩
    · cases hstep

theorem timeUp_cases (hstep : s.timeUp = some s') :
    s.recorder = .outer ∧ s' = { s with
      nextTimestampToRecord := 18446744073709551615
      recording := false
      recorder := .idle
      written := []
      recordings := s.recordings ++ [s.written] } := by
  unfold timeUp at hstep
  split at hstep
  · next hr => exact ⟨hr, (Option.some.inj hstep).symm⟩
  · cases hstep

variable [ReadoutType T]

theorem stepRecorder_frame (hstep : s.stepRecorder = some s') :
    s'.queue = s.queue ∧ s'.memory = s.memory ∧ s'.accepted = s.accepted ∧
      s'.removed = s.removed ∧ s'.cleaner = s.cleaner ∧
      s'.cleanupRequested = s.cleanupRequested ∧ s'.recordings = s.recordings := by
  unfold stepRecorder at hstep
  split at hstep
  case h_1 => cases hstep
  case h_5 => split_ifs at hstep <;> cases hstep <;> exact ⟨rfl, rfl, rfl, rfl, rfl, rfl, rfl⟩
  case h_7 | h_9 =>
    split_ifs at hstep
    cases hstep
    exact ⟨rfl, rfl, rfl, rfl, rfl, rfl, rfl⟩
  case h_6 | h_8 | h_12 | h_13 | h_14 =>
    obtain ⟨_, _, rfl⟩ := Option.map_eq_some_iff.mp hstep
    exact ⟨rfl, rfl, rfl, rfl, rfl, rfl, rfl⟩
  all_goals
    cases hstep
    exact ⟨rfl, rfl, rfl, rfl, rfl, rfl, rfl⟩

theorem stepCleaner_frame (hstep : s.stepCleaner handler = some s') :
    s'.memory = s.memory ∧ s'.accepted = s.accepted ∧ s'.recorder = s.recorder ∧
      s'.nextTimestampToRecord = s.nextTimestampToRecord ∧
      s'.requestsRunning = s.requestsRunning ∧ s'.written = s.written ∧
      s'.recordings = s.recordings := by
  unfold stepCleaner at hstep
  split at hstep
  case h_1 => cases hstep
  case h_2 =>
    split_ifs at hstep
    cases hstep
    exact ⟨rfl, rfl, rfl, rfl, rfl, rfl, rfl⟩
  case h_5 | h_6 | h_7 =>
    obtain ⟨_, _, rfl⟩ := Option.map_eq_some_iff.mp hstep
    exact ⟨rfl, rfl, rfl, rfl, rfl, rfl, rfl⟩
  all_goals
    cases hstep
    exact ⟨rfl, rfl, rfl, rfl, rfl, rfl, rfl⟩

theorem stepCleaner_queue (hstep : s.stepCleaner handler = some s') :
    ((∃ left, s.cleaner = .popping left ∧ s'.cleaner = .testing left) ∧
        s.queue.popFront = some s'.queue ∧ s'.removed = s.removed + 1) ∨
      ((∀ left, s.cleaner ≠ .popping left) ∧ s'.queue = s.queue ∧ s'.removed = s.removed) := by
  unfold stepCleaner at hstep
  cases hc : s.cleaner with
  | popping left =>
    rw [hc] at hstep
    obtain ⟨queue, hpop, rfl⟩ := Option.map_eq_some_iff.mp hstep
    exact .inl ⟨⟨left, rfl, rfl⟩, hpop, rfl⟩
  | idle =>
    rw [hc] at hstep
    cases hstep
  | waiting =>
    rw [hc] at hstep
    dsimp only at hstep
    split_ifs at hstep
    cases hstep
    exact .inr ⟨nofun, rfl, rfl⟩
  | testing left =>
    rw [hc] at hstep
    cases left with
    | zero =>
      cases hstep
      exact .inr ⟨nofun, rfl, rfl⟩
    | succ left =>
      obtain ⟨_, _, rfl⟩ := Option.map_eq_some_iff.mp hstep
      exact .inr ⟨nofun, rfl, rfl⟩
  | removingErrors =>
    rw [hc] at hstep
    obtain ⟨_, _, rfl⟩ := Option.map_eq_some_iff.mp hstep
    exact .inr ⟨nofun, rfl, rfl⟩
  | starting | resetting | notifying =>
    rw [hc] at hstep
    cases hstep
    exact .inr ⟨nofun, rfl, rfl⟩

theorem stepCleaner_popping (hstep : s.stepCleaner handler = some s') {left : ℕ}
    (hpopping : s'.cleaner = .popping left) :
    ∃ x, s.queue.front.bind s.queue.records = some x ∧
      getTimestamp x < s.nextTimestampToRecord := by
  unfold stepCleaner at hstep
  split at hstep
  case h_5 =>
    obtain ⟨x, hx, rfl⟩ := Option.map_eq_some_iff.mp hstep
    refine ⟨x, hx, ?_⟩
    by_contra hge
    simp only [if_neg hge] at hpopping
    cases hpopping
  case h_1 => cases hstep
  case h_2 =>
    split_ifs at hstep
    cases hstep
    cases hpopping
  case h_3 =>
    cases hstep
    dsimp only at hpopping
    split_ifs at hpopping
  case h_6 | h_7 =>
    obtain ⟨_, _, rfl⟩ := Option.map_eq_some_iff.mp hstep
    cases hpopping
  all_goals
    cases hstep
    cases hpopping

theorem stepCleaner_flag (hstep : s.stepCleaner handler = some s')
    (hmutex : s.cleanupRequested = false → s.cleaner = .idle ∨ s.cleaner = .notifying) :
    s'.cleanupRequested = false → s'.cleaner = .idle ∨ s'.cleaner = .notifying := by
  have hset : s.cleaner ≠ .idle → s.cleaner ≠ .notifying → s.cleanupRequested ≠ false :=
    fun hidle hnotifying hflag => (hmutex hflag).elim hidle hnotifying
  unfold stepCleaner at hstep
  split at hstep
  case h_1 => cases hstep
  case h_2 hc =>
    split_ifs at hstep
    cases hstep
    exact fun hflag => absurd hflag (hset (by simp [hc]) (by simp [hc]))
  case h_5 hc | h_6 hc | h_7 hc =>
    obtain ⟨_, _, rfl⟩ := Option.map_eq_some_iff.mp hstep
    exact fun hflag => absurd hflag (hset (by simp [hc]) (by simp [hc]))
  case h_8 =>
    cases hstep
    exact fun _ => .inr rfl
  case h_9 =>
    cases hstep
    exact fun _ => .inl rfl
  all_goals
    rename_i hc
    cases hstep
    exact fun hflag => absurd hflag (hset (by simp [hc]) (by simp [hc]))

theorem step_accepted {a : RecordingAction T}
    (hstep : RecordingSystem.step handler s a = some s') :
    s'.accepted = s.accepted ∨ ∃ x, a = .write x ∧ (s.queue.write x).1 = true ∧
      s'.accepted = s.accepted ++ [x] := by
  cases a with
  | write x =>
    obtain rfl := Option.some.inj hstep
    rw [RecordingSystem.write]
    split_ifs with hwrite
    · exact .inr ⟨x, rfl, hwrite, rfl⟩
    · exact .inl rfl
  | cleanupCheck =>
    obtain ⟨-, rfl | rfl⟩ := cleanupCheck_cases hstep
    · exact .inl rfl
    · exact .inl rfl
  | cleanup => exact .inl (stepCleaner_frame hstep).2.1
  | record =>
    rcases record_cases hstep with rfl | ⟨-, rfl⟩
    · exact .inl rfl
    · exact .inl rfl
  | recorder => exact .inl (stepRecorder_frame hstep).2.2.1
  | timeUp =>
    obtain ⟨-, rfl⟩ := timeUp_cases hstep
    exact .inl rfl

/-- The timestamps increase strictly along the accepted elements. -/
def AcceptedIncreasing (s : RecordingSystem T) : RecordingAction T → Prop
  | .write x => (s.queue.write x).1 = true → ∀ y ∈ s.accepted.getLast?, tsNat y < tsNat x
  | _ => True

instance (s : RecordingSystem T) : DecidablePred (AcceptedIncreasing s)
  | .write x => inferInstanceAs
      (Decidable ((s.queue.write x).1 = true → ∀ y ∈ s.accepted.getLast?, tsNat y < tsNat x))
  | .cleanupCheck | .cleanup | .record | .recorder | .timeUp => isTrue trivial

theorem sorted_step (h : StrictlyIncreasing tsNat s.accepted) {a : RecordingAction T}
    (hincreasing : AcceptedIncreasing s a) (hstep : RecordingSystem.step handler s a = some s') :
    StrictlyIncreasing tsNat s'.accepted := by
  rcases step_accepted hstep with heq | ⟨x, rfl, hwrite, heq⟩
  · rw [heq]
    exact h
  · rw [heq]
    exact h.concat (hincreasing hwrite)

theorem Positions.step (h : Positions base s) {a : RecordingAction T}
    (hstep : RecordingSystem.step handler s a = some s') : Positions base s' := by
  cases a with
  | write payload =>
    obtain rfl := Option.some.inj hstep
    exact h.write payload
  | cleanupCheck =>
    obtain ⟨-, rfl | rfl⟩ := cleanupCheck_cases hstep
    · exact h
    · exact h.congr rfl rfl rfl rfl
  | cleanup =>
    obtain ⟨hmemory, haccepted, -⟩ := stepCleaner_frame hstep
    rcases stepCleaner_queue hstep with ⟨-, hpop, hremoved⟩ | ⟨-, hqueue, hremoved⟩
    · exact (h.pop hpop hmemory haccepted hremoved).1
    · exact h.congr hqueue hmemory haccepted hremoved
  | record =>
    rcases record_cases hstep with rfl | ⟨-, rfl⟩
    · exact h
    · exact h.congr rfl rfl rfl rfl
  | recorder =>
    obtain ⟨hqueue, hmemory, haccepted, hremoved, -⟩ := stepRecorder_frame hstep
    exact h.congr hqueue hmemory haccepted hremoved
  | timeUp =>
    obtain ⟨-, rfl⟩ := timeUp_cases hstep
    exact h.congr rfl rfl rfl rfl

end Steps

end DataHandling.RecordingSystem

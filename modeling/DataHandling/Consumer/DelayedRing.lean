import DataHandling.Consumer.DeferredPass
import DataHandling.Consumer.RingContent

/-! Delayed post-processing over a ring. A search answers with a slot, or with `end()` for a
timestamp that it does not reach; the loop of a pass ends on stored elements of its window
exactly if both of its searches answer in the same way. -/

namespace DataHandling
open ReadoutType Ordered IterableQueueModel

section Search
variable {T : Type} [ReadoutType T]

def BinarySearchQueueModel.reaches (q : BinarySearchQueueModel T) (element : T) : Bool :=
  (q.records q.readIndex).any fun front => !lt element front

def FixedRateQueueModel.reaches (q : FixedRateQueueModel T) (element : T) : Bool :=
  (q.records q.readIndex).any fun front =>
    decide (getTimestamp front ≤ getTimestamp element) &&
      decide (getTimestamp element ≤ extrapolatedNewest q.toIterableQueueModel front)

variable {LB : Type} [LatencyBuffer LB T] [RingBuffer LB T]

def slotAt (lb : LB) (k : ℕ) : ℕ :=
  Cyclic.slot (RingBuffer.queue lb).size (RingBuffer.queue lb).readIndex k

/-- The search answers with the lower bound of what it reaches, and with `end()` otherwise. -/
def LooksUp (reaches : LB → T → Bool) (lb : LB) (xs : List T) : Prop :=
  ∀ element, LatencyBuffer.lowerBound lb element false = some
    (if reaches lb element then slotAt lb (lowerBound tsNat xs (tsNat element)) else endIndex)

theorem BinarySearchQueueModel.looksUp {q : BinarySearchQueueModel T} {xs : List T}
    (h : Represents q.toIterableQueueModel xs) (horder : TimestampConsistent T)
    (hsorted : StrictlyIncreasing tsNat xs) (hne : xs ≠ []) : LooksUp reaches q xs := by
  intro element
  have hfront := h.front_records
  rw [h.front_eq, if_neg hne, Option.bind_some, List.head?_eq_some_head hne] at hfront
  have hreaches : q.reaches element = !lt element (xs.head hne) := by
    rw [reaches, hfront, Option.any_some]
  rw [hreaches]
  refine (search_eq h horder hsorted hne).trans ?_
  cases lt element (xs.head hne) <;> rfl

theorem FixedRateQueueModel.looksUp {q : FixedRateQueueModel T} {xs : List T} {n tick : ℕ}
    (hlayout : UniformLayout T n tick) (h : Represents q.toIterableQueueModel xs)
    (hgap : GapFree (n * tick) xs) (hsize : q.size < 2147483648) (hne : xs ≠ []) :
    LooksUp reaches q xs := by
  intro element
  have hfront := h.front_records
  rw [h.front_eq, if_neg hne, Option.bind_some, List.head?_eq_some_head hne] at hfront
  have hnewest := extrapolatedNewest_toNat (q := q.toIterableQueueModel)
    (hlayout.hasExtent (xs.head hne))
  rw [h.occupancy_eq hsize] at hnewest
  refine (computedSearch_eq h hgap hne (hlayout.hasExtent _) hsize).trans ?_
  have hreaches : (tsNat element < tsNat (xs.head hne) ∨
      (tsNat (xs.head hne) + xs.length * (n * tick)) % 2 ^ 64 < tsNat element) ↔
        q.reaches element = false := by
    rw [reaches, hfront, Option.any_some, Bool.and_eq_false_iff, decide_eq_false_iff_not,
      decide_eq_false_iff_not, UInt64.le_iff_toNat_le, UInt64.le_iff_toNat_le, hnewest,
      Nat.not_le, Nat.not_le]
    rfl
  simp only [hreaches]
  cases q.reaches element <;> rfl

end Search

namespace ConsumerSystem
variable {LB T P : Type} [ReadoutType T] [LatencyBuffer LB T] [RingBuffer LB T]

/-- A pass comes to its end, and each pointer that it hands over is that of a stored element
between the timestamp processed so far and the end of the pass. -/
structure PassSound (conf : ConsumerConf T P) (s : ConsumerSystem LB T P) : Prop where
  terminates : ∃ fuel s', s.deferredPass conf fuel = some s'
  pointers : ∀ fuel s', s.deferredPass conf fuel = some s' →
    ∀ p ∈ s'.postprocessed.drop s.postprocessed.length, ∃ x processed, p = some x ∧
      (∃ slot ∈ (RingBuffer.queue s.latencyBuffer).liveSlots,
        (RingBuffer.queue s.latencyBuffer).records slot = some x) ∧
      s.seededElement = some processed ∧ tsNat processed ≤ tsNat x ∧
      tsNat x < s'.endWinTs.toNat

/-- The pass is not run, or it can read the newest element and, if it is due, reaches both ends
of its window or neither. -/
def PassMeets (reaches : LB → T → Bool) (conf : ConsumerConf T P) (s : ConsumerSystem LB T P) :
    Prop :=
  conf.processingDelayTicks = 0 ∨ (RingBuffer.queue s.latencyBuffer).isEmpty = true ∨
    (RingBuffer.queue s.latencyBuffer).BackReadable ∧
      ∀ tail ∈ LatencyBuffer.back s.latencyBuffer, ∀ processed ∈ s.seededElement,
        passIsDue conf tail processed = true →
          reaches s.latencyBuffer processed =
            reaches s.latencyBuffer (endElement conf tail processed)

instance (reaches : LB → T → Bool) (conf : ConsumerConf T P) (s : ConsumerSystem LB T P) :
    Decidable (PassMeets reaches conf s) :=
  inferInstanceAs (Decidable (_ ∨ _ ∨ _ ∧ _))

/-- The ring holds the newest of the accepted payloads, and nothing is processed beyond them. -/
structure Advancing (R : T → T → Prop) (s : ConsumerSystem LB T P) : Prop where
  stored : HoldsNewestOf (RingBuffer.queue s.latencyBuffer) s.accepted
  chain : s.accepted.IsChain R
  seed : s.firstCycle = false →
    ∃ last ∈ s.accepted.getLast?, tsNat s.processedElement ≤ tsNat last

section Step
variable {conf : ConsumerConf T P} {s s' : ConsumerSystem LB T P} {R : T → T → Prop}

variable (hR : ∀ x y, R x y → tsNat x < tsNat y)
  (hset : ∀ (x : T) t, getTimestamp (setTimestamp x t) = t)

section Content
variable {xs : List T} (hrep : Represents (RingBuffer.queue s.latencyBuffer) xs)
  (hsuffix : xs <:+ s.accepted)

include hR in
theorem Advancing.sorted (h : Advancing R s) (hsuffix : xs <:+ s.accepted) :
    StrictlyIncreasing tsNat xs := by
  have hchain : xs.IsChain fun x y => tsNat x < tsNat y := (h.chain.suffix hsuffix).imp hR
  exact List.isChain_iff_pairwise.mp hchain

include hrep hsuffix

omit [ReadoutType T] in
theorem getLast?_of_back {tail : T} (hback : LatencyBuffer.back s.latencyBuffer = some tail) :
    xs.getLast? = some tail ∧ s.accepted.getLast? = some tail := by
  have hlast : xs.getLast? = some tail := BufferView.back_sound hrep hback
  obtain ⟨before, hbefore⟩ := hsuffix
  have hne : xs ≠ [] := by
    rintro rfl
    cases hlast
  refine ⟨hlast, ?_⟩
  rw [← hbefore, List.getLast?_append_of_ne_nil _ hne, hlast]

include hR hset

theorem Advancing.seededElement_le (h : Advancing R s) {tail processed : T}
    (hback : LatencyBuffer.back s.latencyBuffer = some tail)
    (hseed : s.seededElement = some processed) : tsNat processed ≤ tsNat tail := by
  obtain ⟨hlast, haccepted⟩ := getLast?_of_back hrep hsuffix hback
  rw [seededElement] at hseed
  split_ifs at hseed with hfirst
  · obtain ⟨head, hhead, rfl⟩ := Option.map_eq_some_iff.mp hseed
    have hfront : xs.head? = some head := (BufferView.front_eq hrep).symm.trans hhead
    have hsorted := h.sorted hR hsuffix
    rw [tsNat, hset]
    exact hsorted.le_getLast hlast head (List.mem_of_mem_head? hfront)
  · cases hseed
    obtain ⟨last, hmem, hle⟩ := h.seed (Bool.eq_false_iff.mpr hfirst)
    rw [Option.mem_def, haccepted] at hmem
    cases hmem
    exact hle

end Content

section Preserved
include hR hset

theorem Advancing.pass (h : Advancing R s) {fuel : ℕ} (hpass : PassCases conf fuel s s') :
    Advancing R s' := by
  obtain ⟨xs, hrep, hsuffix⟩ := h.stored
  cases hpass with
  | skipped => exact h
  | @seeded tail processed _ hback hseed =>
    have hle := h.seededElement_le hR hset hrep hsuffix hback hseed
    exact ⟨h.stored, h.chain, fun _ => ⟨tail, (getLast?_of_back hrep hsuffix hback).2, hle⟩⟩
  | @executed pointers tail processed _ _ _ hback hseed hdue =>
    have hle := h.seededElement_le hR hset hrep hsuffix hback hseed
    have hdelay := (passIsDue_iff hle).mp hdue
    have hend : tsNat (endElement conf tail processed) =
      tsNat tail - conf.processingDelayTicks.toNat := tsNat_endElement hset (by omega)
    refine ⟨h.stored, h.chain, fun _ => ⟨tail, (getLast?_of_back hrep hsuffix hback).2, ?_⟩⟩
    show tsNat (endElement conf tail processed) ≤ tsNat tail
    omega

theorem Advancing.step (h : Advancing R s) {a : ConsumerAction T}
    (hfollows : FollowsAccepted R s a) (hstep : ConsumerSystem.step conf s a = some s') :
    Advancing R s' := by
  have hchain := step_chain h.chain hfollows hstep
  have hstored := (step_content h.stored hstep).1
  have haccepted := step_accepted hstep
  cases step_cases hstep with
  | write hphase =>
    refine ⟨hstored, hchain, fun hfirst => ?_⟩
    obtain ⟨last, hmem, hle⟩ := h.seed hfirst
    rcases haccepted with heq | ⟨_, payload, hpayload, hroom, heq⟩
    · exact ⟨last, by rwa [heq], hle⟩
    · refine ⟨payload, by rw [heq]; exact List.getLast?_concat, hle.trans (hR last payload ?_).le⟩
      exact hfollows payload hpayload hroom last hmem
  | pass fuel _ hpass => exact h.pass hR hset hpass
  | preprocess | postprocess | cleanup | popOne | removeErrors => exact ⟨hstored, hchain, h.seed⟩

end Preserved

section Loop
variable {lb : LB} {xs : List T} (hrep : Represents (RingBuffer.queue lb) xs)
  (hsorted : StrictlyIncreasing tsNat xs) {processed endElement tail : T}
  (hlast : xs.getLast? = some tail) (hle : tsNat processed ≤ tsNat endElement)
  (hlt : tsNat endElement < tsNat tail)
include hrep hsorted hlast hlt

theorem lowerBound_endElement_lt : lowerBound tsNat xs (tsNat endElement) < xs.length := by
  have hpos : 0 < xs.length := List.length_pos_iff.mpr (by rintro rfl; cases hlast)
  rw [List.getLast?_eq_getElem?, List.getElem?_eq_getElem (by omega), Option.some.injEq] at hlast
  refine Nat.lt_of_le_of_lt (lowerBound_le_of_le_key (p := xs.length - 1) (by omega) ?_) (by omega)
  rw [hlast]
  exact hlt.le

include hle in
theorem passPointers_reached (fuel : ℕ) :
    passPointers lb (slotAt lb (lowerBound tsNat xs (tsNat endElement))) fuel
        (slotAt lb (lowerBound tsNat xs (tsNat processed))) =
      if lowerBound tsNat xs (tsNat endElement) - lowerBound tsNat xs (tsNat processed) ≤ fuel then
        some ((slice tsNat xs (tsNat processed) (tsNat endElement)).map some)
      else none := by
  have hend := lowerBound_endElement_lt hrep hsorted hlast hlt
  exact passPointers_eq hrep lowerBound_le_length (fun it k hat => hrep.eq_slot_iff hend hat) fuel
    (hrep.at_slot lowerBound_le_length) (hsorted.lowerBound_mono hle)

include hle in
theorem mem_passPointers_endIndex {fuel : ℕ} {pointers : List (Option T)}
    (hpass : passPointers lb endIndex fuel (slotAt lb (lowerBound tsNat xs (tsNat processed))) =
      some pointers) : some tail ∈ pointers := by
  have hmono := hsorted.lowerBound_mono hle
  have hend := lowerBound_endElement_lt hrep hsorted hlast hlt
  rw [List.getLast?_eq_getElem?, List.getElem?_eq_getElem (by omega), Option.some.injEq] at hlast
  rw [← hlast]
  refine mem_passPointers hrep (fun it k hat hk heq => ?_) (hrep.at_slot lowerBound_le_length) hpass
    (by omega) (by omega)
  have hgood := (hrep.good_iff hat).mpr hk
  rw [heq, good_endIndex] at hgood
  cases hgood

theorem passPointers_from_endIndex (fuel : ℕ) :
    passPointers lb (slotAt lb (lowerBound tsNat xs (tsNat endElement))) fuel endIndex = none := by
  refine passPointers_of_stuck (fun heq => ?_)
    ((RingBuffer.next_eq lb endIndex).trans next_endIndex)
    fuel
  have hgood : (RingBuffer.queue lb).good
      (slotAt lb (lowerBound tsNat xs (tsNat endElement))) = true :=
    hrep.good_slot (lowerBound_endElement_lt hrep hsorted hlast hlt)
  rw [← heq, good_endIndex] at hgood
  cases hgood

end Loop

theorem passSound_of_skipped
    (hskip : conf.processingDelayTicks = 0 ∨ LatencyBuffer.occupancy s.latencyBuffer = 0) :
    PassSound conf s := by
  have hpass : ∀ fuel, s.deferredPass conf fuel = some s := fun _ => if_pos hskip
  refine ⟨⟨0, s, hpass 0⟩, fun fuel s' hs' p hp => ?_⟩
  rw [hpass] at hs'
  cases hs'
  simp at hp

include hR hset

/-- A pass that is due is sound exactly if its searches answer in the same way. -/
theorem Advancing.passSound_iff_of_due (h : Advancing R s) {reaches : LB → T → Bool} {xs : List T}
    (hrep : Represents (RingBuffer.queue s.latencyBuffer) xs) (hsuffix : xs <:+ s.accepted)
    (hlook : LooksUp reaches s.latencyBuffer xs)
    (hrun : ¬ (conf.processingDelayTicks = 0 ∨ LatencyBuffer.occupancy s.latencyBuffer = 0))
    {tail processed : T} (hback : LatencyBuffer.back s.latencyBuffer = some tail)
    (hseed : s.seededElement = some processed) (hdue : passIsDue conf tail processed = true) :
    PassSound conf s ↔ reaches s.latencyBuffer processed =
      reaches s.latencyBuffer (endElement conf tail processed) := by
  have hsorted := h.sorted hR hsuffix
  have hlast := (getLast?_of_back hrep hsuffix hback).1
  have hdelay := (passIsDue_iff (h.seededElement_le hR hset hrep hsuffix hback hseed)).mp hdue
  have hpos : 0 < conf.processingDelayTicks.toNat :=
    Nat.pos_of_ne_zero fun hzero => hrun (.inl (UInt64.toNat_inj.mp hzero))
  have hendWin : (getTimestamp tail - conf.processingDelayTicks).toNat =
    tsNat tail - conf.processingDelayTicks.toNat := toNat_endWinTs (by omega)
  have hend : tsNat (endElement conf tail processed) =
    tsNat tail - conf.processingDelayTicks.toNat := tsNat_endElement hset (by omega)
  have hle : tsNat processed ≤ tsNat (endElement conf tail processed) := by omega
  have hlt : tsNat (endElement conf tail processed) < tsNat tail := by omega
  have hpass : ∀ fuel, s.deferredPass conf fuel = _ := fun fuel => by
    rw [deferredPass, if_neg hrun, hback, Option.bind_some, hseed, Option.bind_some, if_pos hdue,
      hlook processed, Option.bind_some, hlook (endElement conf tail processed), Option.bind_some]
  cases hstart : reaches s.latencyBuffer processed with
  | true =>
    cases hfinish : reaches s.latencyBuffer (endElement conf tail processed) with
    | true =>
      simp only [hstart, hfinish, if_true,
        passPointers_reached hrep hsorted hlast hle hlt] at hpass
      refine iff_of_true ⟨⟨xs.length, ?_⟩, fun fuel s' hs' p hp => ?_⟩ rfl
      · rw [hpass, if_pos]
        · exact ⟨_, rfl⟩
        · exact (Nat.sub_le _ _).trans lowerBound_le_length
      · rw [hpass] at hs'
        obtain ⟨pointers, hpointers, rfl⟩ := Option.map_eq_some_iff.mp hs'
        split_ifs at hpointers
        cases hpointers
        -- what is handed over lies in the window
        have hp : p ∈ (slice tsNat xs (tsNat processed)
            (tsNat (endElement conf tail processed))).map some := by
          simpa [handOver] using hp
        obtain ⟨x, hx, rfl⟩ := List.mem_map.mp hp
        obtain ⟨hmem, hlow, hhigh⟩ := hsorted.mem_slice hle x hx
        refine ⟨x, processed, rfl, hrep.exists_slot_of_mem hmem, hseed, hlow, ?_⟩
        show tsNat x < (getTimestamp tail - conf.processingDelayTicks).toNat
        omega
    | false =>
      simp only [hstart, hfinish, if_true, if_false, Bool.false_eq_true] at hpass
      refine iff_of_false (fun hsound => ?_) Bool.noConfusion
      obtain ⟨fuel, s', hs'⟩ := hsound.terminates
      have hpost := hsound.pointers fuel s' hs'
      rw [hpass] at hs'
      obtain ⟨pointers, hpointers, rfl⟩ := Option.map_eq_some_iff.mp hs'
      -- the newest element is past the end of the pass
      have hmem := mem_passPointers_endIndex hrep hsorted hlast hle hlt hpointers
      obtain ⟨x, _, hx, _, _, _, hhigh⟩ := hpost (some tail) (by simpa [handOver] using hmem)
      cases hx
      have hhigh : tsNat tail < (getTimestamp tail - conf.processingDelayTicks).toNat := hhigh
      omega
  | false =>
    cases hfinish : reaches s.latencyBuffer (endElement conf tail processed) with
    | true =>
      simp only [hstart, hfinish, if_true, if_false, Bool.false_eq_true,
        passPointers_from_endIndex hrep hsorted hlast hlt] at hpass
      refine iff_of_false (fun hsound => ?_) Bool.noConfusion
      obtain ⟨fuel, s', hs'⟩ := hsound.terminates
      rw [hpass] at hs'
      cases hs'
    | false =>
      simp only [hstart, hfinish, if_false, Bool.false_eq_true, passPointers_self] at hpass
      refine iff_of_true ⟨⟨0, _, hpass 0⟩, fun fuel s' hs' p hp => ?_⟩ rfl
      rw [hpass] at hs'
      cases hs'
      simp [handOver] at hp

theorem Advancing.passSound_iff (h : Advancing R s) {reaches : LB → T → Bool}
    (hlook : ∀ xs, Represents (RingBuffer.queue s.latencyBuffer) xs → xs <:+ s.accepted →
      xs ≠ [] → LooksUp reaches s.latencyBuffer xs) :
    PassSound conf s ↔ PassMeets reaches conf s := by
  obtain ⟨xs, hrep, hsuffix⟩ := h.stored
  by_cases hdelay : conf.processingDelayTicks = 0
  · exact iff_of_true (passSound_of_skipped (.inl hdelay)) (.inl hdelay)
  by_cases hne : xs = []
  · have hocc : LatencyBuffer.occupancy s.latencyBuffer = 0 := by
      rw [RingBuffer.occupancy_eq, hrep.occupancy_eq_zero_iff]
      exact hne
    exact iff_of_true (passSound_of_skipped (.inr hocc)) (.inr (.inl (hrep.isEmpty_iff.mpr hne)))
  have hrun : ¬ (conf.processingDelayTicks = 0 ∨ LatencyBuffer.occupancy s.latencyBuffer = 0) := by
    rw [RingBuffer.occupancy_eq, hrep.occupancy_eq_zero_iff]
    exact not_or.mpr ⟨hdelay, hne⟩
  have hnonempty : (RingBuffer.queue s.latencyBuffer).isEmpty = false :=
    Bool.eq_false_iff.mpr fun hempty => hne (hrep.isEmpty_iff.mp hempty)
  have hmeets : PassMeets reaches conf s ↔ (RingBuffer.queue s.latencyBuffer).BackReadable ∧
      ∀ tail ∈ LatencyBuffer.back s.latencyBuffer, ∀ processed ∈ s.seededElement,
        passIsDue conf tail processed = true → reaches s.latencyBuffer processed =
          reaches s.latencyBuffer (endElement conf tail processed) := by
    rw [PassMeets, hnonempty]
    simp only [hdelay, Bool.false_eq_true, false_or]
  obtain ⟨processed, hseed⟩ : ∃ processed, s.seededElement = some processed := by
    have hfront : LatencyBuffer.front s.latencyBuffer = xs.head? := BufferView.front_eq hrep
    rw [seededElement, hfront, List.head?_eq_some_head hne]
    split_ifs <;> exact ⟨_, rfl⟩
  rw [hmeets]
  cases hback : LatencyBuffer.back s.latencyBuffer with
  | none =>
    -- the null pointer or the memory outside the ring is read
    refine iff_of_false (fun hsound => ?_) (fun hmeets => ?_)
    · obtain ⟨fuel, s', hs'⟩ := hsound.terminates
      rw [deferredPass, if_neg hrun, hback] at hs'
      cases hs'
    · have hlast := (hrep.back_records_iff hne).mpr hmeets.1.2
      rw [← RingBuffer.back_eq, hback, List.getLast?_eq_some_getLast hne] at hlast
      cases hlast
  | some tail =>
    have hlast := (getLast?_of_back hrep hsuffix hback).1
    have hreadable : (RingBuffer.queue s.latencyBuffer).BackReadable :=
      ⟨hnonempty, (hrep.back_records_iff hne).mp (by rw [← RingBuffer.back_eq, hback, hlast])⟩
    cases hdue : passIsDue conf tail processed with
    | true =>
      rw [h.passSound_iff_of_due hR hset hrep hsuffix (hlook xs hrep hsuffix hne) hrun hback hseed
        hdue]
      simp [hreadable, hseed, hdue]
    | false =>
      refine iff_of_true ?_ ⟨hreadable, by simp [hseed, hdue]⟩
      have hpass : ∀ fuel, s.deferredPass conf fuel =
          some { s with firstCycle := false, processedElement := processed } := by
        intro fuel
        rw [deferredPass, if_neg hrun, hback, Option.bind_some, hseed, Option.bind_some, hdue,
          if_neg Bool.false_ne_true]
      refine ⟨⟨0, _, hpass 0⟩, fun fuel s' hs' p hp => ?_⟩
      rw [hpass] at hs'
      cases hs'
      simp at hp

end Step

section Runs

/-- From an empty ring, at every state of every run. -/
theorem run_passSound_iff (conf : ConsumerConf T P)
    (hset : ∀ (x : T) t, getTimestamp (setTimestamp x t) = t) (processor : P)
    (as : List (ConsumerAction T)) :
    (TimestampConsistent T → ∀ (q : BinarySearchQueueModel T) s,
      Represents q.toIterableQueueModel [] →
      Execution.StepsMeet (step conf) (FollowsAccepted fun x y => tsNat x < tsNat y)
        (init q processor) as →
      Execution.run (step conf) (init q processor) as = some s →
      (PassSound conf s ↔ PassMeets BinarySearchQueueModel.reaches conf s)) ∧
    ∀ n tick, UniformLayout T n tick → ∀ (q : FixedRateQueueModel T) s,
      Represents q.toIterableQueueModel [] → q.size < 2147483648 →
      Execution.StepsMeet (step conf) (FollowsAccepted fun x y => tsNat y = tsNat x + n * tick)
        (init q processor) as →
      Execution.run (step conf) (init q processor) as = some s →
      (PassSound conf s ↔ PassMeets FixedRateQueueModel.reaches conf s) := by
  constructor
  · intro horder q s hq hmeet hrun
    have hinit : Advancing (fun x y => tsNat x < tsNat y) (init q processor) :=
      ⟨hq.holdsNewestOf, .nil, by simp [init]⟩
    have hadvancing := Execution.run_invariant_of_stepsMeet
      (fun s a s' h hfollows hstep => Advancing.step (fun _ _ => id) hset h hfollows hstep)
      hinit hmeet hrun
    refine hadvancing.passSound_iff (fun _ _ => id) hset fun xs hrep hsuffix hne => ?_
    exact BinarySearchQueueModel.looksUp hrep horder (hadvancing.sorted (fun _ _ => id) hsuffix) hne
  · intro n tick hlayout q s hq hsize hmeet hrun
    have hR : ∀ x y : T, tsNat y = tsNat x + n * tick → tsNat x < tsNat y := fun x y heq => by
      have := hlayout.span_pos
      omega
    have hinit : Advancing (fun x y => tsNat y = tsNat x + n * tick) (init q processor) :=
      ⟨hq.holdsNewestOf, .nil, by simp [init]⟩
    have hadvancing := Execution.run_invariant_of_stepsMeet
      (I := fun s => Advancing _ s ∧ (RingBuffer.queue s.latencyBuffer).size = q.size)
      (fun s a s' h hfollows hstep => ⟨h.1.step hR hset hfollows hstep,
        (step_content h.1.stored hstep).2.trans h.2⟩) ⟨hinit, rfl⟩ hmeet hrun
    refine hadvancing.1.passSound_iff hR hset fun xs hrep hsuffix hne => ?_
    exact FixedRateQueueModel.looksUp hlayout hrep (hadvancing.1.chain.suffix hsuffix)
      (hadvancing.2.trans_lt hsize) hne

end Runs

section Chunks

def ringStart : ConsumerSystem (BinarySearchQueueModel (Chunk 1 10)) (Chunk 1 10) Unit :=
  init ⟨.fresh _ 8⟩ ()

def steadyActions : List (ConsumerAction (Chunk 1 10)) :=
  arrivalActions 100 ++ [.deferredPass 9] ++ arrivalActions 110 ++ arrivalActions 120 ++
    arrivalActions 130 ++ [.deferredPass 9] ++ arrivalActions 140 ++ [.startCleanup] ++
    List.replicate 3 (.popOne 1000) ++ [.removeErrors] ++ arrivalActions 150

theorem run_passSound_iff_steady : PassSound delayedConf
    ((Execution.run (step delayedConf) ringStart steadyActions).get (by decide +kernel)) :=
  ((run_passSound_iff delayedConf (fun _ _ => rfl) () steadyActions).1
    (Chunk.timestampOrder 1 10).consistent _ _ (represents_fresh (by decide) (by decide))
    (Execution.stepsMeet_of_checkSteps (fun _ _ => of_decide_eq_true)
      (by decide +kernel : Execution.checkSteps (step delayedConf)
        (fun s a => decide (FollowsAccepted (fun x y => tsNat x < tsNat y) s a)) ringStart
        steadyActions = true))
    (Option.some_get _).symm).mpr (by decide +kernel)

/-- The first pass is only tried, and a cleanup removes the element at which it was to begin. -/
def overtakenActions : List (ConsumerAction (Chunk 1 10)) :=
  arrivalActions 100 ++ [.deferredPass 9] ++ arrivalActions 110 ++ arrivalActions 120 ++
    arrivalActions 130 ++ arrivalActions 140 ++ arrivalActions 150 ++ [.startCleanup] ++
    List.replicate 4 (.popOne 1000) ++ [.removeErrors]

def overtakenState : ConsumerSystem (BinarySearchQueueModel (Chunk 1 10)) (Chunk 1 10) Unit :=
  (Execution.run (step delayedConf) ringStart overtakenActions).get (by decide +kernel)

theorem deferredPass_overtakenState (fuel : ℕ) :
    overtakenState.deferredPass delayedConf fuel = none := by
  have hback : LatencyBuffer.back overtakenState.latencyBuffer = some ⟨150⟩ := by decide +kernel
  have hseed : overtakenState.seededElement = some ⟨100⟩ := by decide +kernel
  have hstart : LatencyBuffer.lowerBound overtakenState.latencyBuffer ⟨100⟩ false =
    some endIndex := by decide +kernel
  have hend : LatencyBuffer.lowerBound overtakenState.latencyBuffer
    (endElement delayedConf ⟨150⟩ ⟨100⟩) false = some 4 := by decide +kernel
  rw [deferredPass, if_neg (by decide +kernel), hback, Option.bind_some, hseed, Option.bind_some,
    if_pos (by decide), hstart, Option.bind_some, hend, Option.bind_some,
    passPointers_of_stuck (by decide) (by decide +kernel), Option.map_none]

theorem not_passSound_of_overtaken :
    ¬ ∀ (as : List (ConsumerAction (Chunk 1 10))) s,
      Execution.StepsMeet (step delayedConf) (FollowsAccepted fun x y => tsNat x < tsNat y)
        ringStart as →
      Execution.run (step delayedConf) ringStart as = some s → PassSound delayedConf s := by
  intro h
  have hmeet : Execution.StepsMeet (step delayedConf)
      (FollowsAccepted fun x y => tsNat x < tsNat y) ringStart overtakenActions :=
    Execution.stepsMeet_of_checkSteps (fun _ _ => of_decide_eq_true)
      (by decide +kernel : Execution.checkSteps (step delayedConf)
        (fun s a => decide (FollowsAccepted (fun x y => tsNat x < tsNat y) s a)) ringStart
        overtakenActions = true)
  obtain ⟨fuel, s', hs'⟩ := (h overtakenActions overtakenState hmeet
    (Option.some_get _).symm).terminates
  rw [deferredPass_overtakenState] at hs'
  cases hs'

end Chunks
end ConsumerSystem
end DataHandling

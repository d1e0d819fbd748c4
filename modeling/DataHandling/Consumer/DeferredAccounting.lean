import DataHandling.Consumer.DelayedRing

/-! What becomes of the payloads in delayed post-processing over a ring that cleanups pop from: each
is handed over once, in order, or popped before a pass gets to it. -/

namespace DataHandling
open ReadoutType Ordered IterableQueueModel

/-- The consumer, with the payloads that were popped before they were post-processed. -/
structure DeferredSystem (LB T P : Type) where
  consumer : ConsumerSystem LB T P
  missed : List T

namespace DeferredSystem
open ConsumerSystem

variable {LB T P : Type} [ReadoutType T] [LatencyBuffer LB T]

def init (lb : LB) (processor : P) : DeferredSystem LB T P := ⟨.init lb processor, []⟩

def unprocessed (s : ConsumerSystem LB T P) (x : T) : Bool :=
  s.firstCycle || decide (getTimestamp s.processedElement ≤ getTimestamp x)

def popped (s : ConsumerSystem LB T P) : ConsumerAction T → List T
  | .popOne nextTimestampToRecord =>
    match s.cleanupPhase with
    | .popping (_ + 1) => (LatencyBuffer.front s.latencyBuffer).toList.filter fun front =>
        decide (getTimestamp front < nextTimestampToRecord)
    | _ => []
  | _ => []

def step (conf : ConsumerConf T P) (s : DeferredSystem LB T P) (a : ConsumerAction T) :
    Option (DeferredSystem LB T P) :=
  (ConsumerSystem.step conf s.consumer a).map fun consumer =>
    ⟨consumer, s.missed ++ (popped s.consumer a).filter (unprocessed s.consumer)⟩

/-- Payloads come by the consumer thread, in the order of their timestamps. -/
def ComesInOrder [RingBuffer LB T] (s : DeferredSystem LB T P) : ConsumerAction T → Prop
  | .preprocess _ _ callback => callback = false
  | a => FollowsAccepted (fun x y => tsNat x < tsNat y) s.consumer a

instance [RingBuffer LB T] (s : DeferredSystem LB T P) :
    (a : ConsumerAction T) → Decidable (ComesInOrder s a)
  | .preprocess _ _ callback => inferInstanceAs (Decidable (callback = false))
  | .write =>
    inferInstanceAs (Decidable (FollowsAccepted (fun x y => tsNat x < tsNat y) s.consumer .write))
  | .postprocess | .deferredPass _ | .startCleanup | .popOne _ | .removeErrors => isTrue trivial

def stored [RingBuffer LB T] (s : DeferredSystem LB T P) : List (Option T) :=
  (RingBuffer.queue s.consumer.latencyBuffer).liveSlots.map
    (RingBuffer.queue s.consumer.latencyBuffer).records

/-- The payloads handed over are those accepted before the end of the last pass, less those missed;
what was not handed over is missed or still stored. -/
structure HandedOrMissed [RingBuffer LB T] (s : DeferredSystem LB T P) : Prop where
  handed : ∃ xs, s.consumer.postprocessed = xs.map some ∧ StrictlyIncreasing tsNat xs ∧
    ∀ x, x ∈ xs ↔ x ∈ s.consumer.accepted ∧ tsNat x < s.consumer.endWinTs.toNat ∧ x ∉ s.missed
  missed : ∀ x ∈ s.missed, x ∈ s.consumer.accepted ∧ some x ∉ s.stored
  stored : ∀ x ∈ s.consumer.accepted, x ∉ s.missed → some x ∉ s.consumer.postprocessed →
    some x ∈ s.stored

/-- The accepted payloads are those popped and those stored, and what was popped is missed or lies
before the next pass. -/
structure Splits [RingBuffer LB T] (s : DeferredSystem LB T P) (old xs : List T) : Prop where
  accepted : s.consumer.accepted = old ++ xs
  stored : Represents (RingBuffer.queue s.consumer.latencyBuffer) xs
  popped : ∀ x ∈ old, x ∈ s.missed ∨
    s.consumer.firstCycle = false ∧ tsNat x < tsNat s.consumer.processedElement
  missed : ∀ x ∈ s.missed, x ∈ old

structure Handed (s : DeferredSystem LB T P) (ys : List T) : Prop where
  postprocessed : s.consumer.postprocessed = ys.map some
  sorted : StrictlyIncreasing tsNat ys
  mem_iff : ∀ x, x ∈ ys ↔
    x ∈ s.consumer.accepted ∧ tsNat x < s.consumer.endWinTs.toNat ∧ x ∉ s.missed

structure Deferring [RingBuffer LB T] (s : DeferredSystem LB T P) : Prop where
  advancing : Advancing (fun x y => tsNat x < tsNat y) s.consumer
  callback : ∀ payload, s.consumer.phase ≠ .preprocessed payload true
  phase : s.consumer.phase ≠ .written
  splits : ∃ old xs, Splits s old xs
  handed : ∃ ys, Handed s ys
  fresh : s.consumer.firstCycle = true → s.consumer.endWinTs = 0
  passEnd : s.consumer.endWinTs ≠ 0 →
    tsNat s.consumer.processedElement = s.consumer.endWinTs.toNat
  seedLeast : s.consumer.firstCycle = false → s.consumer.endWinTs = 0 →
    ∀ x ∈ s.consumer.accepted, tsNat x < tsNat s.consumer.processedElement → x ∈ s.missed

section Step
variable [RingBuffer LB T] {conf : ConsumerConf T P} {s s' : DeferredSystem LB T P}
  {old xs : List T}

theorem Splits.sorted (h : Splits s old xs) (hadvancing : Advancing (fun x y => tsNat x < tsNat y)
    s.consumer) : StrictlyIncreasing tsNat (old ++ xs) := by
  rw [← h.accepted]
  exact hadvancing.sorted (fun _ _ => id) List.suffix_rfl

theorem Splits.lt (h : Splits s old xs) (hadvancing : Advancing (fun x y => tsNat x < tsNat y)
    s.consumer) {x y : T} (hx : x ∈ old) (hy : y ∈ xs) : tsNat x < tsNat y :=
  (List.pairwise_append.mp (h.sorted hadvancing)).2.2 x hx y hy

theorem Splits.not_missed (h : Splits s old xs)
    (hadvancing : Advancing (fun x y => tsNat x < tsNat y) s.consumer) {x : T} (hx : x ∈ xs) :
    x ∉ s.missed := fun hmissed => Nat.lt_irrefl _ (h.lt hadvancing (h.missed x hmissed) hx)

theorem Deferring.endWinTs_le (h : Deferring s) {payload : T}
    (hfollows : ∀ last ∈ s.consumer.accepted.getLast?, tsNat last < tsNat payload) :
    s.consumer.endWinTs.toNat ≤ tsNat payload ∧
      (s.consumer.firstCycle = false → tsNat s.consumer.processedElement ≤ tsNat payload) := by
  have hseed : s.consumer.firstCycle = false →
      tsNat s.consumer.processedElement ≤ tsNat payload := by
    intro hfirst
    obtain ⟨last, hlast, hle⟩ := h.advancing.seed hfirst
    exact hle.trans (hfollows last hlast).le
  refine ⟨?_, hseed⟩
  by_cases hzero : s.consumer.endWinTs = 0
  · rw [hzero]
    exact Nat.zero_le _
  · rw [← h.passEnd hzero]
    exact hseed (Bool.eq_false_iff.mpr fun hfirst => hzero (h.fresh hfirst))

theorem Deferring.beside (h : Deferring s) (phase : ConsumerPhase T) (cleanupPhase : CleanupPhase)
    (errorRegistry : FrameErrorRegistry) (processor : P) (lateArrivals : List LateArrival)
    (hcallback : ∀ payload, phase ≠ .preprocessed payload true) (hphase : phase ≠ .written) :
    Deferring { s with consumer := { s.consumer with
      phase := phase
      cleanupPhase := cleanupPhase
      errorRegistry := errorRegistry
      processor := processor
      lateArrivals := lateArrivals } } where
  advancing := ⟨h.advancing.stored, h.advancing.chain, h.advancing.seed⟩
  callback := hcallback
  phase := hphase
  splits := by
    obtain ⟨old, xs, hsplits⟩ := h.splits
    exact ⟨old, xs, hsplits.accepted, hsplits.stored, hsplits.popped, hsplits.missed⟩
  handed := by
    obtain ⟨ys, hys⟩ := h.handed
    exact ⟨ys, hys.postprocessed, hys.sorted, hys.mem_iff⟩
  fresh := h.fresh
  passEnd := h.passEnd
  seedLeast := h.seedLeast

theorem Deferring.phase_write (h : Deferring s) (hdelay : conf.processingDelayTicks ≠ 0)
    {payload : T} {callback : Bool} (hphase : s.consumer.phase = .preprocessed payload callback) :
    (s.consumer.write conf payload callback).phase = .idle := by
  refine if_neg ?_
  rintro (hcallback | hzero)
  · exact h.callback payload (hcallback ▸ hphase)
  · exact hdelay hzero

section Write
variable {payload : T} {callback : Bool}
  (hidle : (s.consumer.write conf payload callback).phase = .idle)
  (hadvancing : Advancing (fun x y => tsNat x < tsNat y)
    (s.consumer.write conf payload callback))
include hidle hadvancing

theorem Deferring.write_rejected (h : Deferring s)
    (hwrite : (LatencyBuffer.write s.consumer.latencyBuffer payload).1 = false) :
    Deferring { s with consumer := s.consumer.write conf payload callback } := by
  obtain ⟨old, xs, hsplits⟩ := h.splits
  obtain ⟨ys, hys⟩ := h.handed
  have haccepted : (s.consumer.write conf payload callback).accepted = s.consumer.accepted := by
    rw [ConsumerSystem.write]
    exact if_neg (by rw [hwrite]; exact Bool.false_ne_true)
  have hfst := RingBuffer.write_fst s.consumer.latencyBuffer payload
  refine ⟨hadvancing, (by rw [hidle]; rintro _ ⟨⟩), (by rw [hidle]; rintro ⟨⟩),
    ⟨old, xs, haccepted.trans hsplits.accepted, ?_, hsplits.popped, hsplits.missed⟩,
    ⟨ys, hys.postprocessed, hys.sorted, ?_⟩, h.fresh, h.passEnd, ?_⟩
  · show Represents (RingBuffer.queue (LatencyBuffer.write s.consumer.latencyBuffer payload).2) xs
    rw [RingBuffer.write_snd]
    exact hsplits.stored.write_rejected (hfst.symm.trans hwrite)
  · show ∀ x, x ∈ ys ↔ x ∈ (s.consumer.write conf payload callback).accepted ∧ _
    rw [haccepted]
    exact hys.mem_iff
  · show _ → _ → ∀ x ∈ (s.consumer.write conf payload callback).accepted, _
    rw [haccepted]
    exact h.seedLeast

theorem Deferring.write_accepted (h : Deferring s)
    (hwrite : (LatencyBuffer.write s.consumer.latencyBuffer payload).1 = true)
    (hlast : ∀ x ∈ s.consumer.accepted.getLast?, tsNat x < tsNat payload) :
    Deferring { s with consumer := s.consumer.write conf payload callback } := by
  obtain ⟨old, xs, hsplits⟩ := h.splits
  obtain ⟨ys, hys⟩ := h.handed
  have haccepted : (s.consumer.write conf payload callback).accepted =
      s.consumer.accepted ++ [payload] := by
    rw [ConsumerSystem.write]
    exact if_pos hwrite
  have hfst := RingBuffer.write_fst s.consumer.latencyBuffer payload
  obtain ⟨hend, hseed⟩ := h.endWinTs_le hlast
  refine ⟨hadvancing, (by rw [hidle]; rintro _ ⟨⟩), (by rw [hidle]; rintro ⟨⟩),
    ⟨old, xs ++ [payload], ?_, ?_, hsplits.popped, hsplits.missed⟩,
    ⟨ys, hys.postprocessed, hys.sorted, fun x => ?_⟩, h.fresh, h.passEnd, ?_⟩
  · rw [← List.append_assoc, ← hsplits.accepted]
    exact haccepted
  · show Represents (RingBuffer.queue (LatencyBuffer.write s.consumer.latencyBuffer payload).2) _
    rw [RingBuffer.write_snd]
    exact hsplits.stored.write_accepted (hfst.symm.trans hwrite)
  · show x ∈ ys ↔ x ∈ (s.consumer.write conf payload callback).accepted ∧
      tsNat x < s.consumer.endWinTs.toNat ∧ x ∉ s.missed
    rw [haccepted, List.mem_append, List.mem_singleton, hys.mem_iff]
    constructor
    · exact fun hx => ⟨.inl hx.1, hx.2⟩
    · rintro ⟨hold | rfl, hlt, hmissed⟩
      · exact ⟨hold, hlt, hmissed⟩
      · exact absurd hlt (Nat.not_lt.mpr hend)
  · show s.consumer.firstCycle = false → s.consumer.endWinTs = 0 →
      ∀ x ∈ (s.consumer.write conf payload callback).accepted,
        tsNat x < tsNat s.consumer.processedElement → x ∈ s.missed
    rw [haccepted]
    intro hfirst hzero x hx hlt
    rcases List.mem_append.mp hx with hold | hnew
    · exact h.seedLeast hfirst hzero x hold hlt
    · rw [List.mem_singleton.mp hnew] at hlt
      exact absurd (hseed hfirst) (Nat.not_le.mpr hlt)

end Write

theorem Deferring.write (h : Deferring s) (hdelay : conf.processingDelayTicks ≠ 0) {payload : T}
    {callback : Bool} (hphase : s.consumer.phase = .preprocessed payload callback)
    (hfollows : FollowsAccepted (fun x y => tsNat x < tsNat y) s.consumer .write)
    (hadvancing : Advancing (fun x y => tsNat x < tsNat y)
      (s.consumer.write conf payload callback)) :
    Deferring { s with consumer := s.consumer.write conf payload callback } := by
  have hidle := h.phase_write hdelay hphase
  cases hwrite : (LatencyBuffer.write s.consumer.latencyBuffer payload).1 with
  | false => exact h.write_rejected hidle hadvancing hwrite
  | true =>
    have hfst := RingBuffer.write_fst s.consumer.latencyBuffer payload
    have hroom := (write_fst_iff payload).mp (hfst.symm.trans hwrite)
    exact h.write_accepted hidle hadvancing hwrite (hfollows payload (by rw [hphase]; rfl) hroom)

omit [RingBuffer LB T] in
theorem popOne_cases {c c' : ConsumerSystem LB T P} {nextTimestampToRecord : UInt64}
    (hstep : ConsumerSystem.step conf c (.popOne nextTimestampToRecord) = some c') :
    (popped c (.popOne nextTimestampToRecord) = [] ∧
      ∃ cleanupPhase, c' = { c with cleanupPhase := cleanupPhase }) ∨
    ∃ front lb cleanupPhase, popped c (.popOne nextTimestampToRecord) = [front] ∧
      LatencyBuffer.front c.latencyBuffer = some front ∧
      LatencyBuffer.pop 1 c.latencyBuffer = some lb ∧
      c' = { c with latencyBuffer := lb, cleanupPhase := cleanupPhase } := by
  rw [popped]
  cases hphase : c.cleanupPhase with
  | idle | removingErrors =>
    rw [ConsumerSystem.step, hphase] at hstep
    cases hstep
  | popping left =>
    rw [ConsumerSystem.step, hphase] at hstep
    cases left with
    | zero =>
      cases hstep
      exact .inl ⟨rfl, _, rfl⟩
    | succ left =>
      obtain ⟨front, hfront, hstep⟩ := Option.bind_eq_some_iff.mp hstep
      simp only [hfront, Option.toList_some, List.filter_singleton]
      split_ifs at hstep with hold
      · obtain ⟨lb, hpop, rfl⟩ := Option.map_eq_some_iff.mp hstep
        exact .inr ⟨front, lb, _, by rw [decide_eq_true hold]; rfl, rfl, hpop, rfl⟩
      · cases hstep
        exact .inl ⟨by rw [decide_eq_false hold]; rfl, _, rfl⟩

theorem Deferring.pop (h : Deferring s) {front : T} {lb : LB} (cleanupPhase : CleanupPhase)
    (hfront : LatencyBuffer.front s.consumer.latencyBuffer = some front)
    (hpop : LatencyBuffer.pop 1 s.consumer.latencyBuffer = some lb)
    (hadvancing : Advancing (fun x y => tsNat x < tsNat y)
      { s.consumer with latencyBuffer := lb, cleanupPhase := cleanupPhase }) :
    Deferring
      ⟨{ s.consumer with latencyBuffer := lb, cleanupPhase := cleanupPhase },
        s.missed ++ [front].filter (unprocessed s.consumer)⟩ := by
  obtain ⟨old, xs, hsplits⟩ := h.splits
  obtain ⟨ys, hys⟩ := h.handed
  have hqueue := RingBuffer.pop_eq s.consumer.latencyBuffer 1
  rw [hpop, Option.map_some] at hqueue
  obtain ⟨x, rest, rfl, hrest⟩ := hsplits.stored.pop_one hqueue.symm
  have hhead : (x :: rest).head? = some front :=
    (BufferView.front_eq hsplits.stored).symm.trans hfront
  obtain rfl : x = front := Option.some.inj hhead
  have hmem : x ∈ s.consumer.accepted := by
    rw [hsplits.accepted]
    exact List.mem_append_right _ List.mem_cons_self
  have hunprocessed : unprocessed s.consumer x = false ↔ s.consumer.firstCycle = false ∧
      tsNat x < tsNat s.consumer.processedElement := by
    rw [unprocessed, Bool.or_eq_false_iff, decide_eq_false_iff_not, UInt64.le_iff_toNat_le,
      Nat.not_le]
    rfl
  have hmissed : ∀ y, y ∈ s.missed ++ [x].filter (unprocessed s.consumer) ↔
      y ∈ s.missed ∨ y = x ∧ unprocessed s.consumer x = true := by
    intro y
    rw [List.mem_append, List.mem_filter, List.mem_singleton]
    refine or_congr_right (and_congr_right fun hy => ?_)
    rw [hy]
  refine ⟨hadvancing, h.callback, h.phase, ⟨old ++ [x], rest, ?_, hrest, ?_, ?_⟩,
    ⟨ys, hys.postprocessed, hys.sorted, fun y => ?_⟩, h.fresh, h.passEnd, ?_⟩
  · rw [List.append_assoc]
    exact hsplits.accepted
  · intro y hy
    rcases List.mem_append.mp hy with hold | hnew
    · exact (hsplits.popped y hold).imp_left fun hm => (hmissed y).mpr (.inl hm)
    · obtain rfl := List.mem_singleton.mp hnew
      cases hx : unprocessed s.consumer y with
      | false => exact .inr (hunprocessed.mp hx)
      | true => exact .inl ((hmissed y).mpr (.inr ⟨rfl, hx⟩))
  · intro y hy
    rcases (hmissed y).mp hy with hold | ⟨rfl, _⟩
    · exact List.mem_append_left _ (hsplits.missed y hold)
    · exact List.mem_append_right _ (List.mem_singleton_self _)
  · -- what is missed now was not handed over
    rw [hys.mem_iff, hmissed, not_or]
    refine and_congr_right fun _ => and_congr_right fun hlt => (and_iff_left ?_).symm
    rintro ⟨rfl, hx⟩
    have hne : s.consumer.endWinTs ≠ 0 := by
      intro hzero
      rw [hzero] at hlt
      exact Nat.not_lt_zero _ hlt
    have hfirst : s.consumer.firstCycle = false :=
      Bool.eq_false_iff.mpr fun hfirst => hne (h.fresh hfirst)
    rw [← h.passEnd hne] at hlt
    rw [hunprocessed.mpr ⟨hfirst, hlt⟩] at hx
    cases hx
  · exact fun hfirst hzero y hy hlt => (hmissed y).mpr (.inl (h.seedLeast hfirst hzero y hy hlt))

section Pass
variable (hset : ∀ (x : T) t, getTimestamp (setTimestamp x t) = t)

/-- Where a pass begins: what lies before is handed over or missed. -/
structure Begins (s : DeferredSystem LB T P) (old : List T) (processed : T) : Prop where
  popped : ∀ x ∈ old, x ∈ s.missed ∨ tsNat x < tsNat processed
  passEnd : s.consumer.endWinTs ≠ 0 → tsNat processed = s.consumer.endWinTs.toNat
  seedLeast : s.consumer.endWinTs = 0 →
    ∀ x ∈ s.consumer.accepted, tsNat x < tsNat processed → x ∈ s.missed

include hset in
theorem Deferring.begins (h : Deferring s) (hsplits : Splits s old xs) {processed : T}
    (hseed : s.consumer.seededElement = some processed) : Begins s old processed := by
  rw [seededElement] at hseed
  split_ifs at hseed with hfirst
  · -- the first pass begins at the front
    obtain ⟨head, hhead, rfl⟩ := Option.map_eq_some_iff.mp hseed
    have hfront : xs.head? = some head := (BufferView.front_eq hsplits.stored).symm.trans hhead
    have hsorted : StrictlyIncreasing tsNat xs :=
      (hsplits.sorted h.advancing).sublist (List.sublist_append_right old xs)
    have hpopped : ∀ x ∈ old, x ∈ s.missed := by
      intro x hx
      refine (hsplits.popped x hx).resolve_right fun hlater => ?_
      rw [hfirst] at hlater
      cases hlater.1
    refine ⟨fun x hx => .inl (hpopped x hx), fun hend => absurd (h.fresh hfirst) hend, ?_⟩
    intro _ x hx hlt
    rw [tsNat, tsNat, hset] at hlt
    rw [hsplits.accepted] at hx
    rcases List.mem_append.mp hx with hold | hnew
    · exact hpopped x hold
    · exact absurd (hsorted.head_le hfront x hnew) (Nat.not_le.mpr hlt)
  · cases hseed
    have hlater := Bool.eq_false_iff.mpr hfirst
    exact ⟨fun x hx => (hsplits.popped x hx).imp_right And.right, h.passEnd, h.seedLeast hlater⟩

def SearchesFrom (reaches : LB → T → Bool) (lb : LB) : Prop :=
  ∀ xs, Represents (RingBuffer.queue lb) xs → StrictlyIncreasing tsNat xs → xs ≠ [] →
    LooksUp reaches lb xs ∧ ∀ element,
      (reaches lb element = true → ∃ x ∈ xs, tsNat x ≤ tsNat element) ∧
        (reaches lb element = false → ∀ x ∈ xs, tsNat element ≤ tsNat x)

theorem passPointers_window {lb : LB} {reaches : LB → T → Bool} {tail processed finish : T}
    {startIter endIter fuel : ℕ} {pointers : List (Option T)} (hsearch : SearchesFrom reaches lb)
    (hrep : Represents (RingBuffer.queue lb) xs) (hsorted : StrictlyIncreasing tsNat xs)
    (hlast : xs.getLast? = some tail) (hbegin : tsNat processed < tsNat finish)
    (hfinish : tsNat finish < tsNat tail)
    (hstart : LatencyBuffer.lowerBound lb processed false = some startIter)
    (hend : LatencyBuffer.lowerBound lb finish false = some endIter)
    (hpointers : passPointers lb endIter fuel startIter = some pointers) :
    pointers = (slice tsNat xs (tsNat processed) (tsNat finish)).map some := by
  have hne : xs ≠ [] := by
    rintro rfl
    cases hlast
  obtain ⟨hlook, hreach⟩ := hsearch xs hrep hsorted hne
  have hstartEq := Option.some.inj (hstart.symm.trans (hlook processed))
  have hendEq := Option.some.inj (hend.symm.trans (hlook finish))
  cases hlate : reaches lb finish with
  | true =>
    rw [hlate, if_pos rfl] at hendEq
    cases hearly : reaches lb processed with
    | true =>
      rw [hearly, if_pos rfl] at hstartEq
      rw [hstartEq, hendEq, passPointers_reached hrep hsorted hlast hbegin.le hfinish] at hpointers
      split_ifs at hpointers
      exact (Option.some.inj hpointers).symm
    | false =>
      -- the loop does not come to its end
      rw [hearly, if_neg Bool.false_ne_true] at hstartEq
      rw [hstartEq, hendEq] at hpointers
      exact absurd (passPointers_from_endIndex hrep hsorted hlast hfinish fuel)
        (by rw [slotAt] at hpointers ⊢; rw [hpointers]; exact Option.some_ne_none _)
  | false =>
    have hbelow := (hreach finish).2 hlate
    have hearly : reaches lb processed = false := by
      refine Bool.eq_false_iff.mpr fun hreached => ?_
      obtain ⟨x, hx, hle⟩ := (hreach processed).1 hreached
      exact Nat.lt_irrefl _ ((hbelow x hx).trans_lt (hle.trans_lt hbegin))
    rw [hearly, if_neg Bool.false_ne_true] at hstartEq
    rw [hlate, if_neg Bool.false_ne_true] at hendEq
    rw [hstartEq, hendEq, passPointers_self] at hpointers
    -- nothing is stored before the end of the pass
    have hempty : slice tsNat xs (tsNat processed) (tsNat finish) = [] := by
      refine List.eq_nil_iff_forall_not_mem.mpr fun x hx => ?_
      obtain ⟨hmem, _, hbefore⟩ := hsorted.mem_slice hbegin.le x hx
      exact absurd (hbelow x hmem) (Nat.not_le.mpr hbefore)
    rw [hempty]
    exact (Option.some.inj hpointers).symm

theorem Handed.window {ys : List T} (hys : Handed s ys) (h : Deferring s)
    (hsplits : Splits s old xs) {processed : T} (hbegins : Begins s old processed) {finish : ℕ}
    (hle : tsNat processed ≤ finish) :
    StrictlyIncreasing tsNat (ys ++ slice tsNat xs (tsNat processed) finish) ∧
      ∀ x, x ∈ ys ++ slice tsNat xs (tsNat processed) finish ↔
        x ∈ s.consumer.accepted ∧ tsNat x < finish ∧ x ∉ s.missed := by
  have hsorted : StrictlyIncreasing tsNat xs :=
    (hsplits.sorted h.advancing).sublist (List.sublist_append_right old xs)
  have hbefore : ∀ x ∈ ys, tsNat x < tsNat processed := by
    intro x hx
    obtain ⟨_, hlt, _⟩ := (hys.mem_iff x).mp hx
    rwa [hbegins.passEnd fun hzero => by rw [hzero] at hlt; exact Nat.not_lt_zero _ hlt]
  constructor
  · refine List.pairwise_append.mpr ⟨hys.sorted, ?_, fun x hx y hy => ?_⟩
    · exact hsorted.sublist ((List.take_sublist _ _).trans (List.drop_sublist _ _))
    · exact (hbefore x hx).trans_le (hsorted.mem_slice hle y hy).2.1
  · intro x
    rw [List.mem_append, hsorted.mem_slice_iff hle]
    constructor
    · rintro (hx | ⟨hx, _, hlt⟩)
      · obtain ⟨hmem, _, hmissed⟩ := (hys.mem_iff x).mp hx
        exact ⟨hmem, (hbefore x hx).trans_le hle, hmissed⟩
      · refine ⟨?_, hlt, hsplits.not_missed h.advancing hx⟩
        rw [hsplits.accepted]
        exact List.mem_append_right _ hx
    · rintro ⟨hmem, hlt, hmissed⟩
      rcases Nat.lt_or_ge (tsNat x) (tsNat processed) with hearly | hlate
      · -- the passes so far got as far as this one begins
        left
        rw [hys.mem_iff]
        by_cases hzero : s.consumer.endWinTs = 0
        · exact absurd (hbegins.seedLeast hzero x hmem hearly) hmissed
        · exact ⟨hmem, hbegins.passEnd hzero ▸ hearly, hmissed⟩
      · right
        rw [hsplits.accepted] at hmem
        rcases List.mem_append.mp hmem with hold | hnew
        · exact absurd ((hbegins.popped x hold).resolve_left hmissed) (Nat.not_lt.mpr hlate)
        · exact ⟨hnew, hlate, hlt⟩

include hset in
theorem Deferring.pass (h : Deferring s) {reaches : LB → T → Bool}
    (hsearch : SearchesFrom reaches s.consumer.latencyBuffer) {fuel : ℕ}
    {consumer : ConsumerSystem LB T P}
    (hpass : PassCases conf fuel s.consumer consumer) : Deferring ⟨consumer, s.missed⟩ := by
  have hadvancing := h.advancing.pass (fun _ _ => id) hset hpass
  obtain ⟨old, xs, hsplits⟩ := h.splits
  obtain ⟨ys, hys⟩ := h.handed
  cases hpass with
  | skipped => exact h
  | @seeded tail processed _ _ hseed _ =>
    have hbegins := h.begins hset hsplits hseed
    refine ⟨hadvancing, h.callback, h.phase, ⟨old, xs, hsplits.accepted, hsplits.stored,
      fun x hx => ?_, hsplits.missed⟩, ⟨ys, hys.postprocessed, hys.sorted, hys.mem_iff⟩,
      fun hfirst => ?_, hbegins.passEnd, fun _ => hbegins.seedLeast⟩
    · exact (hbegins.popped x hx).imp_right fun hlt => ⟨rfl, hlt⟩
    · cases hfirst
  | @executed pointers tail processed startIter endIter hrun hback hseed hdue hstart hend
      hpointers =>
    have hbegins := h.begins hset hsplits hseed
    have hsuffix : xs <:+ s.consumer.accepted := ⟨old, hsplits.accepted.symm⟩
    have hsorted := h.advancing.sorted (fun _ _ => id) hsuffix
    have hlast := (getLast?_of_back hsplits.stored hsuffix hback).1
    -- the pass ends behind its beginning and before the newest element
    have hdelay := (passIsDue_iff
      (h.advancing.seededElement_le (fun _ _ => id) hset hsplits.stored hsuffix hback
        hseed)).mp hdue
    have hpos : 0 < conf.processingDelayTicks.toNat :=
      Nat.pos_of_ne_zero fun hzero => hrun (.inl (UInt64.toNat_inj.mp hzero))
    have hendWin : (getTimestamp tail - conf.processingDelayTicks).toNat =
      tsNat tail - conf.processingDelayTicks.toNat := toNat_endWinTs (by omega)
    have hfinish : tsNat (endElement conf tail processed) =
      tsNat tail - conf.processingDelayTicks.toNat := tsNat_endElement hset (by omega)
    have hbegin : tsNat processed < tsNat (endElement conf tail processed) := by omega
    have hlt : tsNat (endElement conf tail processed) < tsNat tail := by omega
    have hwindow := passPointers_window hsearch hsplits.stored hsorted hlast hbegin hlt hstart
      hend hpointers
    obtain ⟨hascending, hmem⟩ := hys.window h hsplits hbegins hbegin.le
    refine ⟨hadvancing, h.callback, h.phase, ⟨old, xs, hsplits.accepted, hsplits.stored,
      fun x hx => ?_, hsplits.missed⟩, ⟨_, ?_, hascending, fun x => ?_⟩, fun hfirst => ?_,
      fun _ => hfinish.trans hendWin.symm, fun _ hzero => ?_⟩
    · exact (hbegins.popped x hx).imp_right fun hearly => ⟨rfl, hearly.trans hbegin⟩
    · show s.consumer.postprocessed ++ pointers = _
      rw [hys.postprocessed, hwindow, List.map_append]
    · rw [hmem x, hfinish, ← hendWin]
      exact Iff.rfl
    · cases hfirst
    · -- the end of the pass is not zero
      have hzero : getTimestamp tail - conf.processingDelayTicks = 0 := hzero
      rw [hzero] at hendWin
      have : (0 : UInt64).toNat = 0 := rfl
      omega

end Pass

theorem Deferring.step (h : Deferring s)
    (hset : ∀ (x : T) t, getTimestamp (setTimestamp x t) = t)
    (hdelay : conf.processingDelayTicks ≠ 0) {reaches : LB → T → Bool}
    (hsearch : SearchesFrom reaches s.consumer.latencyBuffer) {a : ConsumerAction T}
    (hmeets : ComesInOrder s a) (hstep : DeferredSystem.step conf s a = some s') :
    Deferring s' := by
  obtain ⟨consumer, hconsumer, rfl⟩ := Option.map_eq_some_iff.mp hstep
  have hfollows : FollowsAccepted (fun x y => tsNat x < tsNat y) s.consumer a := by
    cases a with
    | write => exact hmeets
    | _ => trivial
  have hadvancing := h.advancing.step (fun _ _ => id) hset hfollows hconsumer
  cases a with
  | popOne nextTimestampToRecord =>
    rcases popOne_cases hconsumer with ⟨hpopped, cleanupPhase, rfl⟩ |
      ⟨front, lb, cleanupPhase, hpopped, hfront, hpop, rfl⟩
    · rw [hpopped, List.filter_nil, List.append_nil]
      exact h.beside _ _ _ _ _ h.callback h.phase
    · rw [hpopped]
      exact h.pop cleanupPhase hfront hpop hadvancing
  | preprocess payload cutoffTimestamp callback =>
    have hcallback : callback = false := hmeets
    show Deferring ⟨consumer, s.missed ++ []⟩
    rw [List.append_nil]
    cases step_cases hconsumer with
    | preprocess =>
      refine h.beside _ _ _ _ _ (fun x hx => ?_) fun hx => ?_
      · rw [hcallback] at hx
        cases hx
      · cases hx
    | cleanup ha => obtain ha | ⟨_, ha⟩ := ha <;> cases ha
  | write =>
    show Deferring ⟨consumer, s.missed ++ []⟩
    rw [List.append_nil]
    cases step_cases hconsumer with
    | write hphase => exact h.write hdelay hphase hfollows hadvancing
    | cleanup ha => obtain ha | ⟨_, ha⟩ := ha <;> cases ha
  | postprocess =>
    cases step_cases hconsumer with
    | postprocess hphase => exact absurd hphase h.phase
    | cleanup ha => obtain ha | ⟨_, ha⟩ := ha <;> cases ha
  | deferredPass fuel =>
    show Deferring ⟨consumer, s.missed ++ []⟩
    rw [List.append_nil]
    cases step_cases hconsumer with
    | pass _ _ hpass => exact h.pass hset hsearch hpass
    | cleanup ha => obtain ha | ⟨_, ha⟩ := ha <;> cases ha
  | startCleanup =>
    show Deferring ⟨consumer, s.missed ++ []⟩
    rw [List.append_nil]
    cases step_cases hconsumer with
    | cleanup => exact h.beside _ _ _ _ _ h.callback h.phase
  | removeErrors =>
    show Deferring ⟨consumer, s.missed ++ []⟩
    rw [List.append_nil]
    cases step_cases hconsumer with
    | removeErrors => exact h.beside _ _ _ _ _ h.callback h.phase
    | cleanup ha => obtain ha | ⟨_, ha⟩ := ha <;> cases ha

theorem Deferring.handedOrMissed (h : Deferring s) : HandedOrMissed s := by
  obtain ⟨old, xs, hsplits⟩ := h.splits
  obtain ⟨ys, hys⟩ := h.handed
  have hstored : ∀ x, some x ∈ s.stored ↔ x ∈ xs := by
    intro x
    rw [stored, hsplits.stored.liveSlots_map]
    exact List.mem_map_of_injective (Option.some_injective T)
  have hpost : ∀ x, some x ∈ s.consumer.postprocessed ↔ x ∈ ys := by
    intro x
    rw [hys.postprocessed]
    exact List.mem_map_of_injective (Option.some_injective T)
  refine ⟨⟨ys, hys.postprocessed, hys.sorted, hys.mem_iff⟩, fun x hx => ⟨?_, fun hlive => ?_⟩,
    fun x hx hmissed hlate => (hstored x).mpr ?_⟩
  · rw [hsplits.accepted]
    exact List.mem_append_left _ (hsplits.missed x hx)
  · exact hsplits.not_missed h.advancing ((hstored x).mp hlive) hx
  · have hmem := hx
    rw [hsplits.accepted] at hmem
    refine (List.mem_append.mp hmem).resolve_left fun hold => ?_
    obtain ⟨hfirst, hlt⟩ := (hsplits.popped x hold).resolve_left hmissed
    -- a payload that was popped behind a pass has been handed over by it
    by_cases hzero : s.consumer.endWinTs = 0
    · exact hmissed (h.seedLeast hfirst hzero x hx hlt)
    · rw [h.passEnd hzero] at hlt
      exact hlate ((hpost x).mpr ((hys.mem_iff x).mpr ⟨hx, hlt, hmissed⟩))

end Step

section Runs

variable {T P : Type} [ReadoutType T]

theorem searchesFrom (horder : TimestampConsistent T) (q : BinarySearchQueueModel T) :
    SearchesFrom BinarySearchQueueModel.reaches q := by
  intro xs hrep hsorted hne
  have hrep : Represents q.toIterableQueueModel xs := hrep
  refine ⟨BinarySearchQueueModel.looksUp hrep horder hsorted hne, fun element => ?_⟩
  have hfront := hrep.front_records
  rw [hrep.front_eq, if_neg hne, Option.bind_some, List.head?_eq_some_head hne] at hfront
  have hreaches : q.reaches element = !lt element (xs.head hne) := by
    rw [BinarySearchQueueModel.reaches, hfront, Option.any_some]
  rw [hreaches]
  constructor
  · intro hreached
    exact ⟨xs.head hne, List.head_mem hne,
      horder.le_of_lt_eq_false (by simpa using hreached)⟩
  · intro hmissed x hx
    have hhead : tsNat element ≤ tsNat (xs.head hne) := by
      by_contra hlt
      rw [horder.lt_eq_false (Nat.not_le.mp hlt)] at hmissed
      cases hmissed
    exact hhead.trans (hsorted.head_le (List.head?_eq_some_head hne) x hx)

/-- From an empty ring, at every state of every run. -/
theorem run_handedOrMissed (conf : ConsumerConf T P) (hdelay : conf.processingDelayTicks ≠ 0)
    (hset : ∀ (x : T) t, getTimestamp (setTimestamp x t) = t) (horder : TimestampConsistent T)
    (processor : P) (q : BinarySearchQueueModel T) (hq : Represents q.toIterableQueueModel [])
    (as : List (ConsumerAction T)) (s : DeferredSystem (BinarySearchQueueModel T) T P)
    (hmeet : Execution.StepsMeet (step conf) ComesInOrder (init q processor) as)
    (hrun : Execution.run (step conf) (init q processor) as = some s) : HandedOrMissed s := by
  have hinit : Deferring (init q processor : DeferredSystem (BinarySearchQueueModel T) T P) := by
    refine ⟨⟨hq.holdsNewestOf, .nil, fun hfirst => ?_⟩, fun _ hx => ?_, fun hx => ?_,
      ⟨[], [], rfl, hq, fun x hx => ?_, fun x hx => ?_⟩, ⟨[], rfl, .nil, fun x => ?_⟩,
      fun _ => rfl, fun hend => absurd rfl hend, fun hfirst => ?_⟩
    · cases hfirst
    · cases hx
    · cases hx
    · cases hx
    · cases hx
    · refine iff_of_false List.not_mem_nil fun hx => ?_
      cases hx.1
    · cases hfirst
  have hdeferring := Execution.run_invariant_of_stepsMeet
    (fun s a s' (h : Deferring s) hcomes hstep =>
      h.step hset hdelay (searchesFrom horder s.consumer.latencyBuffer) hcomes hstep)
    hinit hmeet hrun
  exact hdeferring.handedOrMissed

end Runs

section Chunks

/-- Between two passes a cleanup removes the payload at 100, handed over, and those at 110 and
120, which no pass has got to. -/
def hastyActions : List (ConsumerAction (Chunk 1 10)) :=
  arrivalActions 100 ++ arrivalActions 110 ++ arrivalActions 120 ++ arrivalActions 130 ++
    arrivalActions 140 ++ arrivalActions 150 ++ [.deferredPass 9] ++ arrivalActions 160 ++
    [.startCleanup] ++ List.replicate 4 (.popOne 1000) ++ [.removeErrors, .deferredPass 9]

def hastyConf : ConsumerConf (Chunk 1 10) Unit := { delayedConf with processingDelayTicks := 40 }

def hastyStart : DeferredSystem (BinarySearchQueueModel (Chunk 1 10)) (Chunk 1 10) Unit :=
  init ⟨.fresh _ 8⟩ ()

def hastyState : DeferredSystem (BinarySearchQueueModel (Chunk 1 10)) (Chunk 1 10) Unit :=
  (Execution.run (step hastyConf) hastyStart hastyActions).get (by decide +kernel)

theorem run_handedOrMissed_hasty : HandedOrMissed hastyState ∧
    hastyState.consumer.postprocessed = [some ⟨100⟩] ∧ hastyState.missed = [⟨110⟩, ⟨120⟩] := by
  have hmeet : Execution.StepsMeet (step hastyConf) ComesInOrder hastyStart hastyActions :=
    Execution.stepsMeet_of_checkSteps (fun _ _ => of_decide_eq_true)
      (by decide +kernel : Execution.checkSteps (step hastyConf)
        (fun s a => decide (ComesInOrder s a)) hastyStart hastyActions = true)
  have hrun : Execution.run (step hastyConf) hastyStart hastyActions = some hastyState :=
    (Option.some_get _).symm
  refine ⟨?_, by decide +kernel, by decide +kernel⟩
  exact run_handedOrMissed hastyConf (by decide) (fun _ _ => rfl)
    (Chunk.timestampOrder 1 10).consistent () ⟨.fresh _ 8⟩
    (represents_fresh (by decide) (by decide)) hastyActions hastyState hmeet hrun

end Chunks
end DeferredSystem
end DataHandling

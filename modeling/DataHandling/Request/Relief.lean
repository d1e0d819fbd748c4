import DataHandling.Chunk
import DataHandling.Request.Configuration
import DataHandling.Request.Exclusion

/-! When a cleanup makes room in a ring that is full. -/

namespace DataHandling
open MachineInt ReadoutType IterableQueueModel

def RequestHandler.gateConf {T : Type} (h : RequestHandler)
    (lowerBound : IterableQueueModel T → T → Bool → Option ℕ) : GateConf T where
  popLimitSize := h.popLimitSize
  toPop := h.toPop
  lowerBound := lowerBound

def CleanerThread.requesting : CleanerThread → Bool
  | .outside | .notifying => false
  | _ => true

theorem lt_max_of_ne {ts : UInt64} (h : ts ≠ 18446744073709551615) : ts < 18446744073709551615 := by
  rw [UInt64.lt_iff_toNat_lt]
  have hne : ts.toNat ≠ 18446744073709551615 := fun heq => h (UInt64.toNat_inj.mp heq)
  have hlt := ts.toNat_lt
  exact Nat.lt_of_le_of_ne (Nat.le_of_lt_succ hlt) hne

namespace GateSystem
variable {T : Type}

/-- `m_cleanup_requested` is set only while a caller is between its request and its end. -/
def Requested (s : GateSystem T) : Prop :=
  s.cleanupRequested = true → ∃ c ∈ s.cleaners, c.requesting = true

section Requested
variable {s : GateSystem T} {i : ℕ}

theorem Requested.set (h : Requested s) {c : CleanerThread} (hi : s.cleaners[i]? = some c)
    (c' : CleanerThread) (hc : c.requesting = true → c'.requesting = true) :
    s.cleanupRequested = true → ∃ x ∈ s.cleaners.set i c', x.requesting = true := by
  intro hflag
  obtain ⟨x, hx, hreq⟩ := h hflag
  by_cases hxc : x = c
  · subst hxc
    exact ⟨c', List.mem_set (List.getElem?_eq_some_iff.mp hi).1 _, hc hreq⟩
  · exact ⟨x, Counting.mem_set_of_ne hi hx hxc, hreq⟩

theorem requesting_awake (c : CleanerThread) : c.awake.requesting = c.requesting := by
  cases c <;> rfl

theorem Requested.awake (h : Requested s) (hflag : s.cleanupRequested = true) :
    ∃ c ∈ s.cleaners.map CleanerThread.awake, c.requesting = true := by
  obtain ⟨c, hc, hreq⟩ := h hflag
  exact ⟨c.awake, List.mem_map_of_mem hc, by rw [requesting_awake, hreq]⟩

end Requested

section Steps
variable [ReadoutType T] {conf : GateConf T} {s s' : GateSystem T} {i : ℕ}

theorem Requested.cleanupStep (h : Requested s) {c : CleanerThread}
    (hi : s.cleaners[i]? = some c) (hstep : GateSystem.cleanupStep conf s i c = some s') :
    Requested s' := by
  cases c with
  | starting =>
    cases hstep
    exact h.set hi _ fun _ => by split_ifs <;> rfl
  | popping left =>
    cases left with
    | zero =>
      cases hstep
      exact h.set hi _ fun _ => rfl
    | succ left =>
      obtain ⟨front, _, hstep⟩ := Option.bind_eq_some_iff.mp hstep
      split_ifs at hstep
      · obtain ⟨queue, _, rfl⟩ := Option.map_eq_some_iff.mp hstep
        exact h.set hi _ fun _ => rfl
      · cases hstep
        exact h.set hi _ fun _ => rfl
  | removingErrors =>
    obtain ⟨front, _, rfl⟩ := Option.map_eq_some_iff.mp hstep
    exact h.set hi _ fun _ => rfl
  | resetting =>
    cases hstep
    exact nofun
  | notifying =>
    cases hstep
    intro hflag
    obtain ⟨c, hc, hreq⟩ := h.set hi .outside (by simp [CleanerThread.requesting]) hflag
    exact ⟨c.awake, List.mem_map_of_mem hc, by rw [requesting_awake, hreq]⟩
  | outside | parked | woken => cases hstep

theorem Requested.step (h : Requested s) {a : GateAction T}
    (hstep : GateSystem.step conf s a = some s') : Requested s' := by
  cases stepCases hstep with
  | passed _ hflag hcleaners =>
    intro htrue
    rw [hflag] at htrue
    rcases hcleaners with heq | heq
    · rw [heq]
      exact h htrue
    · rw [heq]
      exact h.awake htrue
  | written payload _ hflag hcleaners =>
    intro htrue
    rw [hflag] at htrue
    rw [hcleaners]
    exact h htrue
  | called i c c' hi _ hcleaners _ hc' =>
    intro _
    rw [hcleaners]
    refine ⟨c', List.mem_set (List.getElem?_eq_some_iff.mp hi).1 _, ?_⟩
    rcases hc' with rfl | rfl | rfl <;> rfl
  | cleaning i c hi hstep => exact h.cleanupStep hi hstep

theorem step_size (h : Gate s) {a : GateAction T} (hstep : GateSystem.step conf s a = some s') :
    s'.queue.size = s.queue.size := by
  cases stepCases hstep with
  | passed hqueue _ _ => rw [hqueue]
  | written payload hqueue _ _ =>
    obtain ⟨xs, hxs⟩ := h.stored
    rw [hqueue, size_write]
  | called i c c' hi hqueue _ _ _ => rw [hqueue]
  | cleaning i c hi hstep =>
    rcases cleanupStep_queue hstep with heq | hpop
    · rw [heq]
    · rw [popFront] at hpop
      split_ifs at hpop
      rw [← Option.some.inj hpop, dropFront_size]

end Steps

/-- A caller of `cleanup_check` that is not interrupted pops at least one element. -/
def Relieves [ReadoutType T] (conf : GateConf T) (i : ℕ) (s : GateSystem T) : Prop :=
  ∃ n s', Execution.run (step conf) s (.cleanupCheck i :: List.replicate n (.cleanup i)) = some s' ∧
    s'.queue.liveSlots.length < s.queue.liveSlots.length

structure Quiet (s : GateSystem T) : Prop where
  requests : s.requestsRunning = 0
  cleaners : ∀ c ∈ s.cleaners, c = .outside
  recording : s.nextTimestampToRecord = 18446744073709551615

section Cleanup
variable [ReadoutType T] {conf : GateConf T} {s : GateSystem T} {i : ℕ}

def FrontProtected (q : IterableQueueModel T) : Prop :=
  ∀ x ∈ q.front.bind q.records, getTimestamp x = 18446744073709551615

/-- A cleanup in progress that has popped nothing and is not going to. -/
structure Idling (conf : GateConf T) (i : ℕ) (q : IterableQueueModel T) (s : GateSystem T) :
    Prop where
  queue_eq : s.queue = q
  recording : s.nextTimestampToRecord = 18446744073709551615
  starting : s.cleaners[i]? = some .starting →
    conf.popLimitSize < q.occupancy → 1 ≤ conf.toPop q.occupancy → FrontProtected q
  popping : ∀ left, s.cleaners[i]? = some (.popping (left + 1)) → FrontProtected q

theorem Idling.set {q : IterableQueueModel T} (h : Idling conf i q s) {c : CleanerThread}
    (hi : s.cleaners[i]? = some c) (c' : CleanerThread) (hstarting : c' ≠ .starting)
    (hpopping : ∀ left, c' = .popping (left + 1) → FrontProtected q) :
    Idling conf i q { s with cleaners := s.cleaners.set i c' } := by
  have hget : (s.cleaners.set i c')[i]? = some c' := by
    rw [List.getElem?_set_self (List.getElem?_eq_some_iff.mp hi).1]
  refine ⟨h.queue_eq, h.recording, fun hc => ?_, fun left hc => ?_⟩
  · exact absurd (Option.some.inj (hget.symm.trans hc)) hstarting
  · exact hpopping left (Option.some.inj (hget.symm.trans hc))

theorem Idling.step {q : IterableQueueModel T} (h : Idling conf i q s) {s' : GateSystem T}
    (hstep : GateSystem.step conf s (.cleanup i) = some s') : Idling conf i q s' := by
  obtain ⟨c, hi, hstep⟩ := Option.bind_eq_some_iff.mp hstep
  cases c with
  | starting =>
    cases hstep
    refine h.set hi _ (by split_ifs <;> exact nofun) fun left hleft => ?_
    rw [h.queue_eq] at hleft
    split_ifs at hleft with hlimit
    have hpop := CleanerThread.popping.inj hleft
    exact h.starting hi hlimit (by omega)
  | popping left =>
    cases left with
    | zero =>
      cases hstep
      exact h.set hi _ nofun nofun
    | succ left =>
      obtain ⟨front, hfront, hstep⟩ := Option.bind_eq_some_iff.mp hstep
      have hprotected := h.popping left hi front (by rw [← h.queue_eq]; exact hfront)
      rw [hprotected, if_neg (by rw [h.recording]; decide)] at hstep
      cases hstep
      exact h.set hi _ (by simp) (by simp)
  | removingErrors =>
    obtain ⟨front, _, rfl⟩ := Option.map_eq_some_iff.mp hstep
    have hset := h.set hi .resetting nofun nofun
    exact ⟨hset.queue_eq, hset.recording, hset.starting, hset.popping⟩
  | resetting =>
    cases hstep
    have hset := h.set hi .notifying nofun nofun
    exact ⟨hset.queue_eq, hset.recording, hset.starting, hset.popping⟩
  | notifying =>
    cases hstep
    have hget : (s.cleaners.set i .outside)[i]? = some .outside := by
      rw [List.getElem?_set_self (List.getElem?_eq_some_iff.mp hi).1]
    refine ⟨h.queue_eq, h.recording, fun hc => ?_, fun left hc => ?_⟩
    · rw [notifyAll, List.getElem?_map, hget] at hc
      cases hc
    · rw [notifyAll, List.getElem?_map, hget] at hc
      cases hc
  | outside | parked | woken => cases hstep

theorem Idling.run {q : IterableQueueModel T} (h : Idling conf i q s) {n : ℕ} {s' : GateSystem T}
    (hrun : Execution.run (GateSystem.step conf) s (List.replicate n (.cleanup i)) = some s') :
    s'.queue = q := by
  induction n generalizing s with
  | zero =>
    cases hrun
    exact h.queue_eq
  | succ n ih =>
    obtain ⟨t, ht, hrest⟩ := Execution.run_cons.mp hrun
    exact ih (h.step ht) hrest

theorem not_relieves_of_occupancy_le (hi : s.cleaners[i]? = some .outside)
    (hocc : s.queue.occupancy ≤ conf.popLimitSize) : ¬ Relieves conf i s := by
  rintro ⟨n, s', hrun, hfewer⟩
  obtain ⟨t, ht, hrest⟩ := Execution.run_cons.mp hrun
  simp only [GateSystem.step, hi, gt_iff_lt, Nat.not_lt.mpr hocc, false_and, if_false] at ht
  split_ifs at ht
  obtain rfl := Option.some.inj ht
  cases n with
  | zero =>
    obtain rfl := Option.some.inj hrest
    exact Nat.lt_irrefl _ hfewer
  | succ n =>
    obtain ⟨u, hu, _⟩ := Execution.run_cons.mp hrest
    simp only [GateSystem.step, hi, Option.bind_some, GateSystem.cleanupStep] at hu
    cases hu

/-- The exact condition, in the values that the cleanup itself computes. -/
theorem relieves_iff (hquiet : Quiet s) (hreq : Requested s) (hi : i < s.cleaners.length)
    {x : T} {xs : List T} (hstored : Represents s.queue (x :: xs)) :
    Relieves conf i s ↔ (conf.popLimitSize < s.queue.occupancy ∧
      1 ≤ conf.toPop s.queue.occupancy) ∧ getTimestamp x ≠ 18446744073709551615 := by
  have hcleaner : s.cleaners[i]? = some .outside := by
    rw [List.getElem?_eq_getElem hi]
    exact congrArg some (hquiet.cleaners _ (List.getElem_mem hi))
  have hfree : s.mutexFree = true := by
    refine List.all_eq_true.mpr fun c hc => ?_
    rw [hquiet.cleaners c hc]
    rfl
  have hflag : s.cleanupRequested = false := by
    refine Bool.eq_false_iff.mpr fun htrue => ?_
    obtain ⟨c, hc, hrequesting⟩ := hreq htrue
    rw [hquiet.cleaners c hc] at hrequesting
    cases hrequesting
  have hfront : s.queue.front.bind s.queue.records = some x := hstored.front_records
  have hget : ∀ c c' : CleanerThread, ((s.cleaners.set i c).set i c')[i]? = some c' := by
    intro c c'
    rw [List.getElem?_set_self (by rw [List.length_set]; exact hi)]
  have hstart : ∀ c : CleanerThread, (s.cleaners.set i c)[i]? = some c := by
    intro c
    rw [List.getElem?_set_self hi]
  have hcheck : GateSystem.step conf s (.cleanupCheck i) =
      if s.queue.occupancy > conf.popLimitSize then
        some { s with cleanupRequested := true, cleaners := s.cleaners.set i .starting }
      else some s := by
    simp only [GateSystem.step, hcleaner, hfree, hflag, if_true, and_true, awaitRequests,
      hquiet.requests]
  constructor
  · intro hrelieves
    have hlimit : conf.popLimitSize < s.queue.occupancy := by
      by_contra hle
      exact not_relieves_of_occupancy_le hcleaner (Nat.not_lt.mp hle) hrelieves
    obtain ⟨n, s', hrun, hfewer⟩ := hrelieves
    obtain ⟨t, ht, hrest⟩ := Execution.run_cons.mp hrun
    rw [hcheck] at ht
    by_contra hnot
    suffices hidling : Idling conf i s.queue t by
      rw [hidling.run hrest] at hfewer
      exact Nat.lt_irrefl _ hfewer
    rw [if_pos hlimit] at ht
    obtain rfl := Option.some.inj ht
    refine ⟨rfl, hquiet.recording, fun _ _ htoPop => ?_, fun left hc => ?_⟩
    · intro y hy
      rw [hfront] at hy
      obtain rfl := Option.some.inj hy
      by_contra hne
      exact hnot ⟨⟨hlimit, htoPop⟩, hne⟩
    · rw [hstart] at hc
      cases hc
  · rintro ⟨⟨hlimit, htoPop⟩, hne⟩
    obtain ⟨left, hleft⟩ : ∃ left, conf.toPop s.queue.occupancy = left + 1 :=
      ⟨conf.toPop s.queue.occupancy - 1, by omega⟩
    have hbelow : getTimestamp x < s.nextTimestampToRecord := by
      rw [hquiet.recording]
      exact lt_max_of_ne hne
    have hpop := hstored.popFront_eq (List.cons_ne_nil x xs)
    refine ⟨2, { s with
      cleanupRequested := true
      queue := s.queue.dropFront
      cleaners := ((s.cleaners.set i .starting).set i (.popping (left + 1))).set i
        (.popping left) }, ?_, ?_⟩
    · rw [Execution.run, hcheck, if_pos hlimit, Option.bind_some]
      simp only [List.replicate, Execution.run, GateSystem.step, hstart, Option.bind_some,
        GateSystem.cleanupStep, if_pos hlimit, hleft, hget, hfront, hbelow, if_true, hpop,
        Option.map_some]
    · rw [hstored.liveSlots_length, hstored.dropFront.liveSlots_length]
      exact Nat.lt_succ_self _

end Cleanup

/-- What `occupancy()` says of a full ring: from `2^31 + 1` slots on its signed 32-bit arithmetic
overflows. -/
def fullOccupancy (size readIndex : ℕ) : ℕ :=
  if size ≤ 2147483648 then size - 1
  else if 0 < readIndex then 18446744069414584319 + size
  else if size ≤ 3221225472 then 2 * size - 4294967297
  else 18446744065119617023 + 2 * size

theorem occupancy_of_full {q : IterableQueueModel T} {xs : List T} (h : Represents q xs)
    (hlen : xs.length = q.size - 1) : q.occupancy = fullOccupancy q.size q.readIndex := by
  have hread := h.read_lt
  have hwrite := h.write_lt
  have hsize := h.size_lt
  have htwo := h.two_le_size
  have hdist := h.distance_eq
  rw [Cyclic.distance, hlen] at hdist
  rw [occupancy, i32_sub_i32, i32_add_i32, fullOccupancy]
  rcases Nat.eq_zero_or_pos q.readIndex with hzero | hpos
  · have hdiff : (q.writeIndex : ℤ) - q.readIndex = q.size - 1 := by
      split_ifs at hdist <;> omega
    rw [hdiff, if_neg (Nat.not_lt.mpr hzero.le)]
    unfold toSize i32
    split_ifs <;> omega
  · have hdiff : (q.writeIndex : ℤ) - q.readIndex = -1 := by
      split_ifs at hdist <;> omega
    rw [hdiff, if_pos hpos]
    unfold toSize i32
    split_ifs <;> omega

/-- When a full ring is relieved: the limit of the configuration is below its capacity, as far as
the occupancy is computed without overflow, and the oldest element can be told from one that is
about to be recorded. -/
def CanRelieve [ReadoutType T] (c : RequestHandlerConf) (h : RequestHandler)
    (q : IterableQueueModel T) : Prop :=
  (∀ x ∈ q.front.bind q.records, getTimestamp x ≠ 18446744073709551615) ∧
    if q.size < 2147483648 then c.popLimitPct * q.size < q.size - 1
    else h.popLimitSize < fullOccupancy q.size q.readIndex ∧
      1 ≤ h.toPop (fullOccupancy q.size q.readIndex)

/-- In every reachable state in which the ring is full, a cleanup pops an element just if the
configuration lets it. -/
theorem run_relieves_iff [ReadoutType T] {canOpen : DataRecorder → Bool} {c : RequestHandlerConf}
    {h₀ h : RequestHandler} (hconf : h₀.conf canOpen c = some (false, h)) (h2 : 2 ≤ c.bufferSize)
    (hsize : c.bufferSize < 4294967296) (hpop : 1 ≤ c.popSizePct * (c.bufferSize - 1))
    (lowerBound : IterableQueueModel T → T → Bool → Option ℕ) (registry : FrameErrorRegistry)
    (threads cleaners : ℕ) (as : List (GateAction T)) (s : GateSystem T)
    (hrun : Execution.run (step (h.gateConf lowerBound))
      (init (fresh T c.bufferSize) registry threads cleaners) as = some s)
    (hfull : s.queue.isFull = true) (hquiet : Quiet s) (i : ℕ) (hi : i < s.cleaners.length) :
    Relieves (h.gateConf lowerBound) i s ↔ CanRelieve c h s.queue := by
  obtain ⟨⟨hlimit0, hlimit1⟩, ⟨-, hsize1⟩, hpct, hlimit⟩ := RequestHandler.conf_accepted hconf
  have hinv : Gate s ∧ s.queue.size = c.bufferSize ∧ Requested s :=
    Execution.run_invariant (I := fun s => Gate s ∧ s.queue.size = c.bufferSize ∧ Requested s)
      (fun s a s' ⟨hgate, hs, hreq⟩ hstep =>
        ⟨hgate.step hstep, (step_size hgate hstep).trans hs, hreq.step hstep⟩)
      ⟨gate_init (represents_fresh h2 hsize) registry threads cleaners, rfl, nofun⟩ hrun
  obtain ⟨hgate, hbuffer, hreq⟩ := hinv
  obtain ⟨xs, hxs⟩ := hgate.stored
  have hlen := hxs.isFull_iff.mp hfull
  rw [hbuffer] at hlen
  cases xs with
  | nil =>
    rw [List.length_nil] at hlen
    omega
  | cons x xs =>
    rw [relieves_iff hquiet hreq hi hxs, CanRelieve, hxs.front_records, hbuffer]
    have hfront : (∀ y ∈ (x :: xs).head?, getTimestamp y ≠ 18446744073709551615) ↔
        getTimestamp x ≠ 18446744073709551615 := by
      simp only [List.head?_cons, Option.mem_some_iff, forall_eq']
    rw [hfront, and_comm]
    refine and_congr_right fun _ => ?_
    split_ifs with hsmall
    · have hocc := hxs.occupancy_eq (by rw [hbuffer]; exact hsmall)
      have hcast : ((c.bufferSize - 1 : ℕ) : ℚ) = (c.bufferSize : ℚ) - 1 := by
        rw [Nat.cast_sub (by omega), Nat.cast_one]
      have htoPop : 1 ≤ h.toPop (c.bufferSize - 1) := by
        rw [RequestHandler.toPop, hpct, one_le_toUnsigned_share_iff hsize1 (by omega), hcast]
        exact hpop
      rw [hocc, hlen]
      change h.popLimitSize < _ ∧ 1 ≤ h.toPop _ ↔ _
      rw [and_iff_left htoPop, hlimit, toUnsigned_share_lt_iff hlimit0 hlimit1 hsize, hcast]
    · rw [occupancy_of_full hxs (by rw [hbuffer]; exact hlen), hbuffer]
      rfl

def halfConf : RequestHandlerConf := ⟨1 / 2, 1 / 2, 4, none⟩

def halfHandler : RequestHandler := ⟨1 / 2, 1 / 2, 2, 4, 1, false, "", 0, none⟩

def fillingActions (n : ℕ) : List (GateAction (Chunk 1 10)) :=
  (List.range n).map fun k => .write ⟨100 + 10 * k.toUInt64⟩

def filledState (h : RequestHandler) (n : ℕ) : Option (GateSystem (Chunk 1 10)) :=
  Execution.run (step (h.gateConf fun q x _ => BinarySearchQueueModel.search q x))
    (init (fresh _ (n + 1)) .empty 1 1) (fillingActions n)

instance (s : GateSystem T) : Decidable (Quiet s) :=
  decidable_of_iff (s.requestsRunning = 0 ∧ (∀ c ∈ s.cleaners, c = .outside) ∧
      s.nextTimestampToRecord = 18446744073709551615)
    ⟨fun ⟨h1, h2, h3⟩ => ⟨h1, h2, h3⟩, fun ⟨h1, h2, h3⟩ => ⟨h1, h2, h3⟩⟩

instance [ReadoutType T] (c : RequestHandlerConf) (h : RequestHandler) (q : IterableQueueModel T) :
    Decidable (CanRelieve c h q) :=
  inferInstanceAs (Decidable (_ ∧ _))

theorem run_relieves_iff_half : Relieves
    (halfHandler.gateConf fun q (x : Chunk 1 10) _ => BinarySearchQueueModel.search q x) 0
    ((filledState halfHandler 3).get (by decide +kernel)) :=
  (run_relieves_iff
    (by decide +kernel :
      RequestHandler.init.conf (fun _ => true) halfConf = some (false, halfHandler))
    (by decide) (by decide) (by decide +kernel) _ .empty 1 1 (fillingActions 3) _
    (Option.some_get _).symm (by decide +kernel) (by decide +kernel) 0 (by decide +kernel)).mpr
      (by decide +kernel)

/-- Nine tenths of ten elements: the ring is full with nine, and nine are not too many. -/
def highConf : RequestHandlerConf := ⟨9 / 10, 1 / 2, 10, none⟩

def highHandler : RequestHandler := ⟨9 / 10, 1 / 2, 9, 10, 4, false, "", 0, none⟩

def highState : GateSystem (Chunk 1 10) := (filledState highHandler 9).get (by decide +kernel)

theorem not_relieves_of_highLimit :
    ¬ ∀ (canOpen : DataRecorder → Bool) (c : RequestHandlerConf) (h₀ h : RequestHandler),
      h₀.conf canOpen c = some (false, h) → 2 ≤ c.bufferSize → c.bufferSize < 4294967296 →
      1 ≤ c.popSizePct * (c.bufferSize - 1) →
      ∀ (lowerBound : IterableQueueModel (Chunk 1 10) → Chunk 1 10 → Bool → Option ℕ)
        (as : List (GateAction (Chunk 1 10))) (s : GateSystem (Chunk 1 10)),
        Execution.run (step (h.gateConf lowerBound))
          (init (fresh _ c.bufferSize) .empty 1 1) as = some s →
        s.queue.isFull = true → Quiet s → Relieves (h.gateConf lowerBound) 0 s := by
  intro h
  have hcaller : highState.cleaners[0]? = some .outside := by decide +kernel
  have hocc : highState.queue.occupancy ≤ highHandler.popLimitSize := by decide +kernel
  exact not_relieves_of_occupancy_le hcaller hocc
    (h (fun _ => true) highConf .init highHandler (by decide +kernel) (by decide) (by decide)
      (by decide +kernel) (fun q x _ => BinarySearchQueueModel.search q x) (fillingActions 9)
      highState (Option.some_get _).symm (by decide +kernel) (by decide +kernel))

end GateSystem
end DataHandling
